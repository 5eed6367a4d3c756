import TurboGP.Lib.FiniteMap
import TurboGP.Storage.Page

/-!
# The buffer pool

The pool of `storage/buffer_pool.rs`: frames that hold pages of the table
files, a page table, and the clock that chooses the frame to reuse.
-/

namespace TurboGP.Storage

open List

structure PageId where
  tableId : UInt64
  pageNum : UInt32
  deriving DecidableEq, Repr

structure Frame where
  page : Page
  pinCount : UInt32
  dirty : Bool
  referenced : Bool
  pageId : Option PageId

namespace Frame

def free : Frame :=
  { page := .new, pinCount := 0, dirty := false, referenced := false, pageId := none }

end Frame

abbrev PageTable := Finmap fun _ : PageId => Nat

/-- The bytes of `<table_id>.tbl` for every table that has the file. -/
abbrev TableFiles := Finmap fun _ : UInt64 => List UInt8

structure BufferPool where
  frames : List Frame
  pageTable : PageTable
  clockHand : Nat
  files : TableFiles
  nextPageNum : Finmap fun _ : UInt64 => UInt32

inductive PoolFault
  | io (message : String)
  | panic
  deriving DecidableEq, Repr

abbrev PoolM := EStateM PoolFault BufferPool

/-- The keys of a page table, in the order in which they are read. -/
structure PoolHost where
  pageIds : PageTable → List PageId
  mem_pageIds : ∀ table id, id ∈ pageIds table ↔ id ∈ table

namespace TableFiles

def getFile (files : TableFiles) (tableId : UInt64) : TableFiles :=
  if tableId ∈ files then files else files.insert tableId []

def content (files : TableFiles) (tableId : UInt64) : List UInt8 := (files.lookup tableId).getD []

/-- The bytes that `read_exact` finds for a page, at most those of a page. -/
def pageBytes (files : TableFiles) (id : PageId) : List UInt8 :=
  ((files.content id.tableId).drop (id.pageNum.toNat * pageSize)).take pageSize

/-- The page that `read_page_from_disk` returns: a new one where the file
ends before the page does. -/
def page (files : TableFiles) (id : PageId) : Except PoolFault Page :=
  let buf := files.pageBytes id
  if buf.length < pageSize then .ok .new
  else
    match Page.fromBytes buf with
    | some page => .ok page
    | none => .error (.io s!"corruption: page too small: {buf.length} bytes")

/-- Bytes are written at an offset; a gap before it is filled with zeros. -/
def writeAt (content : List UInt8) (offset : Nat) (bytes : List UInt8) : List UInt8 :=
  content.take offset ++ replicate (offset - content.length) 0 ++ bytes ++
    content.drop (offset + bytes.length)

def write (files : TableFiles) (id : PageId) (page : Page) : TableFiles :=
  files.insert id.tableId
    (writeAt (files.content id.tableId) (id.pageNum.toNat * pageSize) page.toBytes)

end TableFiles

namespace BufferPool

def new (files : TableFiles) (capacity : Nat) : BufferPool :=
  { frames := replicate capacity .free, pageTable := ∅, clockHand := 0, files := files
    nextPageNum := ∅ }

def frameAt (idx : Nat) : PoolM Frame := do
  match (← get).frames[idx]? with
  | some frame => return frame
  | none => throw .panic

/-- An assignment to fields of `self.frames[idx]`. -/
def modifyFrame (idx : Nat) (change : Frame → Frame) : PoolM Unit := do
  let frame ← frameAt idx
  modify fun pool => { pool with frames := pool.frames.set idx (change frame) }

def readPageFromDisk (id : PageId) : PoolM Page := do
  modify fun pool => { pool with files := pool.files.getFile id.tableId }
  ofExcept ((← get).files.page id)

def writePageToDisk (id : PageId) (page : Page) : PoolM Unit :=
  modify fun pool => { pool with files := pool.files.write id page }

def clockRounds : Nat → PoolM (Option Nat)
  | 0 => return none
  | rounds + 1 => do
    let pool ← get
    let idx := pool.clockHand
    set { pool with clockHand := (idx + 1) % pool.frames.length }
    let frame ← frameAt idx
    if frame.pinCount = 0 then
      if frame.referenced then
        modifyFrame idx fun frame => { frame with referenced := false }
        clockRounds rounds
      else return some idx
    else clockRounds rounds

def findVictim : PoolM (Option Nat) := do
  clockRounds (2 * (← get).frames.length)

/-- The page of a frame leaves the pool; a dirty one is written back. -/
def evictPage (victim : Frame) : PoolM Unit :=
  match victim.pageId with
  | some victimId => do
    if victim.dirty then writePageToDisk victimId victim.page
    modify fun pool =>
      { pool with pageTable := pool.pageTable.erase victimId }
  | none => pure ()

def replacePage (id : PageId) (idx : Nat) : PoolM Nat := do
  let victim ← frameAt idx
  evictPage victim
  let page ← readPageFromDisk id
  modifyFrame idx fun _ =>
    { page := page, pinCount := 1, dirty := false, referenced := true, pageId := some id }
  modify fun pool => { pool with pageTable := pool.pageTable.insert id idx }
  return idx

def fetchPage (id : PageId) : PoolM Nat := do
  match (← get).pageTable.lookup id with
  | some idx =>
    modifyFrame idx fun frame =>
      { frame with pinCount := frame.pinCount + 1, referenced := true }
    return idx
  | none =>
    match ← findVictim with
    | some idx => replacePage id idx
    | none => throw (.io "buffer pool exhausted: all frames pinned (increase capacity)")

/-- `new_page`; the number is taken also when no frame is free. -/
def newPage (tableId : UInt64) : PoolM PageId := do
  let pageNum := ((← get).nextPageNum.lookup tableId).getD 0
  let id : PageId := { tableId := tableId, pageNum := pageNum }
  modify fun pool =>
    { pool with
      nextPageNum := pool.nextPageNum.insert tableId (pageNum + 1) }
  let idx ← fetchPage id
  modifyFrame idx fun frame => { frame with dirty := true }
  return id

def unpinPage (id : PageId) (dirty : Bool) : PoolM Unit := do
  match (← get).pageTable.lookup id with
  | some idx =>
    modifyFrame idx fun frame =>
      { frame with
        pinCount := if frame.pinCount > 0 then frame.pinCount - 1 else frame.pinCount
        dirty := frame.dirty || dirty }
  | none => pure ()

def getPage (idx : Nat) : PoolM Page := do
  return (← frameAt idx).page

/-- A page is stored through the reference of `get_page_mut`. -/
def storePage (idx : Nat) (page : Page) : PoolM Unit :=
  modifyFrame idx fun frame => { frame with page := page }

def markDirty (id : PageId) : PoolM Unit := do
  match (← get).pageTable.lookup id with
  | some idx => modifyFrame idx fun frame => { frame with dirty := true }
  | none => pure ()

/-- `flush_page`, and the body of the loops of `flush_table` and
`flush_all`. -/
def flushPage (id : PageId) : PoolM Unit := do
  match (← get).pageTable.lookup id with
  | some idx =>
    let frame ← frameAt idx
    if frame.dirty then
      writePageToDisk id frame.page
      modifyFrame idx fun frame => { frame with dirty := false }
  | none => pure ()

def flushTable (host : PoolHost) (tableId : UInt64) : PoolM Unit := do
  (host.pageIds (← get).pageTable).forM
    (fun id => if id.tableId = tableId then flushPage id else pure ())

def flushAll (host : PoolHost) : PoolM Unit := do
  (host.pageIds (← get).pageTable).forM flushPage

end BufferPool

/-! ## The table files as a map of pages -/

theorem toBytes_new : Page.new.toBytes = replicate pageSize 0 := by
  have header : Page.new.header.words.flatMap toLeBytes = replicate headerSize 0 := by
    decide
  unfold Page.toBytes
  rw [header]
  exact replicate_append_replicate

namespace TableFiles

def Whole (files : TableFiles) : Prop := ∀ tableId, pageSize ∣ (files.content tableId).length

def diskPage (files : TableFiles) (id : PageId) : Page := (files.page id).toOption.getD .new

variable {files : TableFiles}

theorem page_eq (files : TableFiles) (id : PageId) : files.page id = .ok (files.diskPage id) := by
  unfold diskPage page
  by_cases short : (files.pageBytes id).length < pageSize
  · simp only [if_pos short]
    rfl
  · simp only [if_neg short]
    unfold Page.fromBytes
    rw [dif_pos (Nat.le_of_not_lt short)]
    rfl

theorem diskPage_of_short {id : PageId} (short : (files.pageBytes id).length < pageSize) :
    files.diskPage id = .new := by
  unfold diskPage page
  simp only [if_pos short]
  rfl

theorem diskPage_of_bytes {id : PageId} {page : Page} (bytes : files.pageBytes id = page.toBytes) :
    files.diskPage id = page := by
  have long : ¬ page.toBytes.length < pageSize := by
    rw [page.length_toBytes]
    exact Nat.lt_irrefl _
  unfold diskPage TableFiles.page
  simp only [bytes, if_neg long, page.fromBytes_toBytes]
  rfl

theorem diskPage_congr {other : TableFiles} {id : PageId}
    (same : files.pageBytes id = other.pageBytes id) : files.diskPage id = other.diskPage id := by
  unfold diskPage page
  simp only [same]

theorem content_getFile (files : TableFiles) (tableId tested : UInt64) :
    (files.getFile tableId).content tested = files.content tested := by
  unfold getFile content
  split
  · rfl
  · next absent =>
    rw [FiniteMap.lookup_insert_eq]
    split
    · next same =>
      rw [same, Finmap.lookup_eq_none.mpr absent]
      rfl
    · rfl

theorem diskPage_getFile (files : TableFiles) (tableId : UInt64) :
    (files.getFile tableId).diskPage = files.diskPage := by
  funext id
  refine diskPage_congr ?_
  unfold pageBytes
  rw [content_getFile]

theorem Whole.getFile (whole : files.Whole) (tableId : UInt64) : (files.getFile tableId).Whole := by
  intro tested
  rw [content_getFile]
  exact whole tested

theorem content_write (files : TableFiles) (id : PageId) (page : Page) (tested : UInt64) :
    (files.write id page).content tested =
      if tested = id.tableId then
        writeAt (files.content id.tableId) (id.pageNum.toNat * pageSize) page.toBytes
      else files.content tested := by
  unfold write content
  rw [FiniteMap.lookup_insert_eq]
  split <;> rfl

section

variable {content bytes : List UInt8} {place : Nat}

private theorem length_before (content : List UInt8) (offset : Nat) :
    (content.take offset ++ replicate (offset - content.length) 0).length = offset := by
  rw [length_append, length_take, length_replicate]
  omega

theorem writeAt_before {tested : Nat} (before : tested < place)
    (whole : pageSize ∣ content.length) :
    ((writeAt content (place * pageSize) bytes).drop (tested * pageSize)).take pageSize =
      if (tested + 1) * pageSize ≤ content.length then
        (content.drop (tested * pageSize)).take pageSize
      else replicate pageSize 0 := by
  obtain ⟨pages, length⟩ := whole
  rw [Nat.mul_comm] at length
  have fits : (tested + 1) * pageSize ≤ place * pageSize := Nat.mul_le_mul_right pageSize before
  have step : (tested + 1) * pageSize = tested * pageSize + pageSize := Nat.succ_mul tested pageSize
  have inFront := length_before content (place * pageSize)
  unfold writeAt
  rw [append_assoc, drop_append_of_le_length (by omega),
    take_append_of_le_length (by rw [length_drop]; omega)]
  by_cases inside : (tested + 1) * pageSize ≤ content.length
  · rw [if_pos inside, drop_append_of_le_length (by rw [length_take]; omega),
      take_append_of_le_length (by rw [length_drop, length_take]; omega),
      drop_take, take_take, Nat.min_eq_left (by omega)]
  · have behind : content.length ≤ tested * pageSize := by
      rw [length] at inside ⊢
      refine Nat.mul_le_mul_right pageSize ?_
      have below : pages < tested + 1 := Nat.lt_of_mul_lt_mul_right (Nat.lt_of_not_le inside)
      omega
    have taken : content.take (place * pageSize) = content := take_of_length_le (by omega)
    rw [if_neg inside, taken, drop_append,
      drop_of_length_le behind, nil_append, drop_replicate,
      take_replicate, Nat.min_eq_left (by omega)]

theorem writeAt_self (size : bytes.length = pageSize) :
    ((writeAt content (place * pageSize) bytes).drop (place * pageSize)).take pageSize = bytes := by
  unfold writeAt
  rw [append_assoc, drop_left' (length_before content _), take_left' size]

theorem writeAt_behind {tested : Nat} (behind : place < tested) (size : bytes.length = pageSize) :
    (writeAt content (place * pageSize) bytes).drop (tested * pageSize) =
      content.drop (tested * pageSize) := by
  have fits : (place + 1) * pageSize ≤ tested * pageSize := Nat.mul_le_mul_right pageSize behind
  have step : (place + 1) * pageSize = place * pageSize + pageSize := Nat.succ_mul place pageSize
  have inFront : (content.take (place * pageSize) ++
        replicate (place * pageSize - content.length) 0 ++
      bytes).length = place * pageSize + pageSize := by
    rw [length_append, length_before, size]
  unfold writeAt
  rw [drop_append, drop_of_length_le (by omega), nil_append,
    inFront, drop_drop, size, Nat.add_sub_of_le (by omega)]

theorem length_writeAt (whole : pageSize ∣ content.length) (size : bytes.length = pageSize) :
    pageSize ∣ (writeAt content (place * pageSize) bytes).length := by
  have inFront := length_before content (place * pageSize)
  have total : (writeAt content (place * pageSize) bytes).length =
      place * pageSize + pageSize + (content.length - (place * pageSize + pageSize)) := by
    unfold writeAt
    rw [length_append, length_append, inFront, length_drop, size]
  have here : pageSize ∣ place * pageSize + pageSize :=
    Nat.dvd_add (Nat.dvd_mul_left pageSize place) (Nat.dvd_refl pageSize)
  rw [total]
  exact Nat.dvd_add here (Nat.dvd_sub whole here)

end

theorem Whole.write (whole : files.Whole) (id : PageId) (page : Page) :
    (files.write id page).Whole := by
  intro tested
  rw [content_write]
  split
  · exact length_writeAt (whole id.tableId) page.length_toBytes
  · exact whole tested

theorem diskPage_write (whole : files.Whole) (id tested : PageId) (page : Page) :
    (files.write id page).diskPage tested =
      if tested = id then page else files.diskPage tested := by
  obtain ⟨tableId, pageNum⟩ := id
  obtain ⟨testedTable, testedNum⟩ := tested
  by_cases sameTable : testedTable = tableId
  · subst sameTable
    have bytes : (files.write ⟨testedTable, pageNum⟩ page).pageBytes ⟨testedTable, testedNum⟩ =
        ((writeAt (files.content testedTable) (pageNum.toNat * pageSize) page.toBytes).drop
          (testedNum.toNat * pageSize)).take pageSize := by
      unfold pageBytes
      rw [content_write, if_pos rfl]
    rcases Nat.lt_trichotomy testedNum.toNat pageNum.toNat with
      before | same | behind
    · have ne : (⟨testedTable, testedNum⟩ : PageId) ≠ ⟨testedTable, pageNum⟩ := by
        intro equal
        cases equal
        exact Nat.lt_irrefl _ before
      rw [if_neg ne]
      rw [writeAt_before before (whole testedTable)] at bytes
      split at bytes
      · exact diskPage_congr bytes
      · next short =>
        rw [diskPage_of_bytes (bytes.trans toBytes_new.symm), diskPage_of_short]
        have step : (testedNum.toNat + 1) * pageSize = testedNum.toNat * pageSize + pageSize :=
          Nat.succ_mul testedNum.toNat pageSize
        have pos : 0 < pageSize := by decide
        unfold pageBytes
        rw [length_take, length_drop]
        show min pageSize
          ((files.content testedTable).length - testedNum.toNat * pageSize) < pageSize
        omega
    · have equal := UInt32.toNat_inj.mp same
      rw [if_pos (by rw [equal])]
      refine diskPage_of_bytes (bytes.trans ?_)
      rw [same]
      exact writeAt_self page.length_toBytes
    · have ne : (⟨testedTable, testedNum⟩ : PageId) ≠ ⟨testedTable, pageNum⟩ := by
        intro equal
        cases equal
        exact Nat.lt_irrefl _ behind
      rw [if_neg ne]
      rw [writeAt_behind behind page.length_toBytes] at bytes
      exact diskPage_congr bytes
  · rw [if_neg fun equal => sameTable (congrArg PageId.tableId equal)]
    refine diskPage_congr ?_
    unfold pageBytes
    rw [content_write, if_neg sameTable]

end TableFiles

end TurboGP.Storage
