import TurboGP.Lib.GuardedRun
import TurboGP.Storage.RoundTrip

/-! # The accounting of group commit -/

namespace TurboGP.Storage

open Server Effect GuardedRun Finmap Os List

/-- Bytes are only added, and what is durable stays durable. -/
structure DiskFile.Grows (file next : DiskFile) : Prop where
  bytes : file.bytes <+: next.bytes
  durable : file.durable ≤ next.durable

def Directory.Grows (directory next : Directory) : Prop :=
  ∀ name file, directory.lookup name = some file →
    ∃ grown, next.lookup name = some grown ∧ file.Grows grown

theorem DiskFile.Grows.refl (file : DiskFile) : file.Grows file := ⟨prefix_rfl, Nat.le_refl _⟩

namespace Directory

variable {directory middle next : Directory} {name : List Char}

theorem Grows.refl (directory : Directory) : directory.Grows directory :=
  fun _ file found => ⟨file, found, .refl file⟩

theorem Grows.trans (first : directory.Grows middle)
    (second : middle.Grows next) : directory.Grows next := by
  intro name file found
  obtain ⟨between, foundBetween, grown⟩ := first name file found
  obtain ⟨last, foundLast, grownMore⟩ := second name between foundBetween
  exact ⟨last, foundLast, grown.bytes.trans grownMore.bytes,
    Nat.le_trans grown.durable grownMore.durable⟩

variable {file : DiskFile}

theorem grows_insert {grown : DiskFile}
    (found : directory.lookup name = some file) (grows : file.Grows grown) :
    directory.Grows (directory.insert name grown) := by
  intro other old foundOld
  by_cases same : other = name
  · rw [same] at foundOld ⊢
    have isFile : file = old := Option.some.inj (found.symm.trans foundOld)
    rw [← isFile]
    exact ⟨grown, lookup_insert _, grows⟩
  · exact ⟨old, (lookup_insert_of_ne _ same).trans foundOld, .refl old⟩

theorem grows_openAppend (directory : Directory) (name : List Char) :
    directory.Grows (directory.openAppend name) := by
  unfold openAppend
  split
  · exact .refl directory
  · next absent =>
    intro other old foundOld
    have differs : other ≠ name := by
      intro same
      rw [same] at foundOld
      exact absent (mem_of_lookup_eq_some foundOld)
    exact ⟨old, (lookup_insert_of_ne _ differs).trans foundOld, .refl old⟩

theorem lookup_openAppend (directory : Directory) (name : List Char) :
    ∃ file, (directory.openAppend name).lookup name = some file := by
  unfold openAppend
  split
  · next held => exact mem_iff.mp held
  · exact ⟨DiskFile.empty, lookup_insert _⟩

variable (found : directory.lookup name = some file)

include found

theorem grows_write (bytes : Bytes) : directory.Grows (directory.write name bytes) := by
  have longer : file.Grows (file.append bytes) := ⟨prefix_append _ _, Nat.le_refl _⟩
  unfold write
  rw [found]
  exact grows_insert found longer

theorem lookup_write (bytes : Bytes) :
    (directory.write name bytes).lookup name = some (file.append bytes) := by
  unfold write
  rw [found]
  exact lookup_insert _

theorem grows_syncAll : directory.Grows (directory.syncAll name) := by
  have safer : file.Grows file.synced := ⟨prefix_rfl, file.durable_le⟩
  unfold syncAll
  rw [found]
  exact grows_insert found safer

theorem lookup_syncAll : (directory.syncAll name).lookup name = some file.synced := by
  unfold syncAll
  rw [found]
  exact lookup_insert _

end Directory

/-- A record that was appended: its line ends at `stop` in its segment. -/
structure Placed where
  line : Bytes
  lsn : UInt64
  segment : UInt64
  stop : Nat

namespace Placed

def InFile (placed : Placed) (file : DiskFile) : Prop :=
  placed.stop ≤ file.bytes.length ∧ placed.line <:+ file.bytes.take placed.stop

def Written (placed : Placed) (directory : Directory) : Prop :=
  ∃ file, directory.lookup (segmentName placed.segment) = some file ∧ placed.InFile file

def Durable (placed : Placed) (directory : Directory) : Prop :=
  ∃ file, directory.lookup (segmentName placed.segment) = some file ∧
    placed.InFile file ∧ placed.stop ≤ file.durable

variable {placed : Placed} {directory next : Directory}

theorem InFile.grows {file grown : DiskFile} (inFile : placed.InFile file)
    (grows : file.Grows grown) : placed.InFile grown := by
  obtain ⟨more, isGrown⟩ := grows.bytes
  obtain ⟨inside, ends⟩ := inFile
  unfold InFile
  rw [← isGrown, length_append, take_append_of_le_length inside]
  exact ⟨Nat.le_add_right_of_le inside, ends⟩

theorem Written.grows (written : placed.Written directory)
    (grows : directory.Grows next) : placed.Written next := by
  obtain ⟨file, found, inFile⟩ := written
  obtain ⟨grown, foundGrown, fileGrows⟩ := grows _ file found
  exact ⟨grown, foundGrown, inFile.grows fileGrows⟩

theorem Durable.grows (durable : placed.Durable directory)
    (grows : directory.Grows next) : placed.Durable next := by
  obtain ⟨file, found, inFile, covered⟩ := durable
  obtain ⟨grown, foundGrown, fileGrows⟩ := grows _ file found
  exact ⟨grown, foundGrown, inFile.grows fileGrows, Nat.le_trans covered fileGrows.durable⟩

theorem Written.durable_syncAll (written : placed.Written directory) :
    placed.Durable (directory.syncAll (segmentName placed.segment)) := by
  obtain ⟨file, found, inFile⟩ := written
  exact ⟨file.synced, Directory.lookup_syncAll found, inFile, inFile.1⟩

end Placed

structure Ledger where
  state : WalState
  placed : List Placed

inductive LogCall
  | append (record : WalRecord)
  | appendAsync (record : WalRecord)
  | sync
  | syncToLsn (lsn : UInt64)
  | flushGroup (lsns : List UInt64)

/-- Where a record went that was appended to the open log. -/
def placedBy (host : WalHost) (os : Os) (record : WalRecord)
    (before after : WalState) : List Placed :=
  match after.wal.file with
  | none => []
  | some segment =>
    [{ line := (record.stamped before.wal.nextLsn os.now).lineBytes host, lsn := before.wal.nextLsn
       segment := segment, stop := after.directory.size (segmentName segment) }]

namespace Ledger

/-- A record counts as appended when the call returns `Ok`. -/
def afterAppend {α : Type} (host : WalHost) (os : Os) (record : WalRecord)
    (ledger : Ledger) : EStateM.Result WalError WalState α → Ledger
  | .ok _ next =>
    { state := next, placed := ledger.placed ++ placedBy host os record ledger.state next }
  | .error _ next => { ledger with state := next }

def step (host : WalHost) (ledger : Ledger) : LogCall × Os → Ledger
  | (.append record, os) =>
    ledger.afterAppend host os record (Storage.append host os record ledger.state)
  | (.appendAsync record, os) =>
    ledger.afterAppend host os record (Storage.appendAsync host os record ledger.state)
  | (.sync, os) => { ledger with state := finalState (Storage.sync os) ledger.state }
  | (.syncToLsn lsn, os) =>
    { ledger with
      state := finalState (Storage.syncToLsn os lsn) ledger.state }
  | (.flushGroup lsns, os) =>
    { ledger with
      state := finalState (Storage.flushGroup os lsns) ledger.state }

def Settled (ledger : Ledger) : Prop :=
  ∀ placed ∈ ledger.placed, placed.Durable ledger.state.directory

/-- The records up to the last synced number are durable. -/
def Accounted (ledger : Ledger) : Prop :=
  ∀ placed ∈ ledger.placed,
    placed.lsn ≤ ledger.state.wal.lastSyncedLsn → placed.Durable ledger.state.directory

end Ledger

/-- The open segment has reached the limit, so that an append leaves it. -/
def WalState.IsFull (state : WalState) : Prop :=
  ∃ segment, state.wal.file = some segment ∧
    state.wal.segmentLimit.toNat ≤ state.directory.size (segmentName segment)

/-- The calls under which the accounting is right: a full segment is left only
with durable records, the counter does not start again, and nobody asks for a
number that no record has yet. -/
def Allowed (ledger : Ledger) : LogCall × Os → Prop
  | (.append _, _) | (.appendAsync _, _) =>
    (ledger.state.IsFull → ledger.Settled) ∧ ledger.state.wal.nextLsn.toNat + 1 < 2 ^ 64
  | (.sync, _) => True
  | (.syncToLsn lsn, _) => lsn < ledger.state.wal.nextLsn
  | (.flushGroup lsns, _) => ∀ lsn ∈ lsns, lsn < ledger.state.wal.nextLsn

def WalState.HasFile (state : WalState) : Prop :=
  ∃ segment file, state.wal.file = some segment ∧
    state.directory.lookup (segmentName segment) = some file

/-- What `append` leaves of a state, whether it fails or not. -/
structure Continues (state next : WalState) : Prop where
  hasFile : next.HasFile
  grows : state.directory.Grows next.directory
  lastSynced : next.wal.lastSyncedLsn = state.wal.lastSyncedLsn
  nextLsn : next.wal.nextLsn = state.wal.nextLsn ∨ next.wal.nextLsn = state.wal.nextLsn + 1
  file : next.wal.file = state.wal.file ∨ state.IsFull

section

variable {host : WalHost} {os : Os} {record : WalRecord}
  {state next : WalState}

theorem maybeRotate_continues (hasFile : state.HasFile) :
    Continues state (finalState (maybeRotate os) state) ∧
      (finalState (maybeRotate os) state).wal.nextLsn = state.wal.nextLsn := by
  obtain ⟨segment, file, isFile, found⟩ := hasFile
  have same : Continues state state :=
    ⟨⟨segment, file, isFile, found⟩, .refl _, rfl, .inl rfl, .inl rfl⟩
  unfold finalState
  rw [maybeRotate_run isFile]
  by_cases metadataFails : os.metadataFails = true
  · rw [if_pos metadataFails]
    exact ⟨same, rfl⟩
  rw [if_neg metadataFails]
  by_cases full : state.wal.segmentLimit.toNat ≤ state.directory.size (segmentName segment)
  · rw [if_pos full]
    unfold rotate
    cases os.openFails with
    | true =>
      exact
        ⟨⟨⟨segment, file, isFile, found⟩, .refl _, rfl, .inl rfl, .inl rfl⟩, rfl⟩
    | false =>
      obtain ⟨opened, foundOpened⟩ :=
        Directory.lookup_openAppend state.directory (segmentName (state.wal.currentSegment + 1))
      exact ⟨⟨⟨_, opened, rfl, foundOpened⟩, Directory.grows_openAppend _ _, rfl,
        .inl rfl, .inr ⟨segment, isFile, full⟩⟩, rfl⟩
  · rw [if_neg full]
    exact ⟨same, rfl⟩

/-- The line is at the end of the open file, and it has the old number. -/
def Appended (host : WalHost) (os : Os) (record : WalRecord) (state next : WalState) : Prop :=
  ∃ segment file, next.wal.file = some segment ∧
    next.directory.lookup (segmentName segment) = some file ∧
    (record.stamped state.wal.nextLsn os.now).lineBytes host <:+ file.bytes

theorem writeRecord_cases (hasFile : state.HasFile) :
    ∃ next, Continues state next ∧ next.wal.file = state.wal.file ∧
      (writeRecord host os record state = .error .os next ∨
        writeRecord host os record state = .ok () next ∧ Appended host os record state next) := by
  obtain ⟨segment, file, isFile, found⟩ := hasFile
  have continues (kept : Bytes) : Continues state
        { directory := state.directory.write (segmentName segment) kept
          wal := { state.wal with nextLsn := state.wal.nextLsn + 1 } } :=
    { hasFile := ⟨segment, file.append kept, isFile, Directory.lookup_write found _⟩
      grows := Directory.grows_write found _, lastSynced := rfl, nextLsn := .inr rfl
      file := .inl rfl }
  unfold writeRecord writeAll
  rw [get_bind_run, isFile]
  cases stops : os.writeStops with
  | none =>
    have inFile := Directory.lookup_write found
      ((record.stamped state.wal.nextLsn os.now).lineBytes host)
    have ends := suffix_append file.bytes
      ((record.stamped state.wal.nextLsn os.now).lineBytes host)
    exact ⟨_, continues _, isFile, .inr ⟨rfl, segment, _, isFile, inFile, ends⟩⟩
  | some count => exact ⟨_, continues _, isFile, .inl rfl⟩

theorem append_cases (hasFile : state.HasFile) : ∃ next, Continues state next ∧
      ((∃ fault, append host os record state = .error fault next) ∨
        append host os record state = .ok () next ∧ Appended host os record state next) := by
  obtain ⟨rotated, sameLsn⟩ := @maybeRotate_continues os state hasFile
  unfold finalState at rotated sameLsn
  unfold append
  cases out : maybeRotate os state with
  | error fault middle =>
    rw [out] at rotated
    rw [bind_run_error out]
    exact ⟨middle, rotated, .inl ⟨fault, rfl⟩⟩
  | ok value middle =>
    rw [out] at rotated sameLsn
    rw [bind_run_ok out]
    obtain ⟨next, written, sameFile, ends⟩ :=
      @writeRecord_cases host os record middle rotated.hasFile
    have continues : Continues state next :=
      { hasFile := written.hasFile, grows := rotated.grows.trans written.grows
        lastSynced := written.lastSynced.trans rotated.lastSynced
        nextLsn := sameLsn ▸ written.nextLsn, file := sameFile ▸ rotated.file }
    refine ⟨next, continues, ?_⟩
    rcases ends with failed | ⟨ran, appended⟩
    · exact .inl ⟨.os, failed⟩
    · unfold Appended at appended
      rw [sameLsn] at appended
      exact .inr ⟨ran, appended⟩

theorem appendAsync_run : appendAsync host os record state =
      match append host os record state with
      | .ok _ next => .ok next.wal.currentLsn next
      | .error fault next => .error fault next := by
  unfold appendAsync
  cases out : append host os record state with
  | ok value next =>
    rw [bind_run_ok out]
    rfl
  | error fault next => rw [bind_run_error out]

theorem afterAppend_appendAsync (ledger : Ledger) :
    ledger.afterAppend host os record (appendAsync host os record state) =
      ledger.afterAppend host os record (append host os record state) := by
  rw [appendAsync_run]
  cases append host os record state <;> rfl

theorem syncFile_run {segment : UInt64} (isFile : state.wal.file = some segment) :
    syncFile os state =
      if os.syncFails then .error .os state
      else
        .ok ()
          { state with
            directory := state.directory.syncAll (segmentName segment) } := by
  unfold syncFile
  rw [get_bind_run, isFile]
  cases os.syncFails <;> rfl

theorem syncToLsn_run (lsn : UInt64) : syncToLsn os lsn state =
      if state.wal.lastSyncedLsn < lsn then
        (syncFile os >>= fun _ => modify fun state => { state with wal.lastSyncedLsn := lsn }) state
      else .ok () state := by
  unfold syncToLsn
  rw [get_bind_run]
  split <;> rfl

end

/-- What holds in every run of allowed calls.  A record that is not durable
is in the open file, which is the one that the next `fsync` reaches. -/
structure Ledger.Sound (ledger : Ledger) : Prop where
  hasFile : ledger.state.HasFile
  written : ∀ placed ∈ ledger.placed, placed.Written ledger.state.directory
  current : ∀ placed ∈ ledger.placed,
      placed.Durable ledger.state.directory ∨ ledger.state.wal.file = some placed.segment
  synced : ledger.state.wal.lastSyncedLsn < ledger.state.wal.nextLsn
  accounted : ledger.Accounted

namespace Ledger.Sound

variable {host : WalHost} {os : Os} {ledger : Ledger} {next : WalState}

variable (sound : ledger.Sound)

include sound

/-- A successful `fsync` settles the whole ledger. -/
theorem syncFile_cases : syncFile os ledger.state = .error .os ledger.state ∨
      ∃ directory, syncFile os ledger.state = .ok () { ledger.state with directory := directory } ∧
          ledger.state.directory.Grows directory ∧
          ∀ placed ∈ ledger.placed, placed.Durable directory := by
  obtain ⟨segment, file, isFile, found⟩ := sound.hasFile
  rw [syncFile_run isFile]
  cases os.syncFails with
  | true => exact .inl rfl
  | false =>
    have grows := Directory.grows_syncAll found
    refine .inr ⟨_, rfl, grows, ?_⟩
    intro placed mem
    rcases sound.current placed mem with durable | inOpen
    · exact durable.grows grows
    · have sameSegment : segment = placed.segment := Option.some.inj (isFile.symm.trans inOpen)
      rw [sameSegment]
      exact (sound.written placed mem).durable_syncAll

theorem settled {directory : Directory} {lsn : UInt64}
    (grows : ledger.state.directory.Grows directory)
    (durable : ∀ placed ∈ ledger.placed, placed.Durable directory)
    (given : lsn < ledger.state.wal.nextLsn) :
    Ledger.Sound
      { ledger with
        state :=
          { directory := directory
            wal := { ledger.state.wal with lastSyncedLsn := lsn } } } := by
  obtain ⟨segment, file, isFile, found⟩ := sound.hasFile
  obtain ⟨grown, foundGrown, -⟩ := grows _ file found
  exact
    { hasFile := ⟨segment, grown, isFile, foundGrown⟩
      written := fun placed mem =>
        (sound.written placed mem).grows grows
      current := fun placed mem => .inl (durable placed mem)
      synced := given
      accounted := fun placed mem _ => durable placed mem }

theorem sync : Ledger.Sound
      { ledger with
        state := finalState (Storage.sync os) ledger.state } := by
  have lastGiven : ledger.state.wal.currentLsn < ledger.state.wal.nextLsn := by
    have above := UInt64.lt_iff_toNat_lt.mp sound.synced
    exact currentLsn_lt (Nat.lt_of_le_of_lt (Nat.zero_le _) above)
  unfold Storage.sync finalState
  rcases @syncFile_cases os ledger sound with
    failed | ⟨directory, ran, grows, durable⟩
  · rw [bind_run_error failed]
    exact sound
  · rw [bind_run_ok ran]
    exact sound.settled grows durable lastGiven

theorem syncToLsn {lsn : UInt64} (given : lsn < ledger.state.wal.nextLsn) : Ledger.Sound
      { ledger with
        state := finalState (Storage.syncToLsn os lsn) ledger.state } := by
  unfold finalState
  rw [syncToLsn_run]
  by_cases later : ledger.state.wal.lastSyncedLsn < lsn
  · rw [if_pos later]
    rcases @syncFile_cases os ledger sound with
      failed | ⟨directory, ran, grows, durable⟩
    · rw [bind_run_error failed]
      exact sound
    · rw [bind_run_ok ran]
      exact sound.settled grows durable given
  · rw [if_neg later]
    exact sound

theorem durable_of_syncToLsn {placed : Placed} (mem : placed ∈ ledger.placed)
    (ran : Storage.syncToLsn os placed.lsn ledger.state = .ok () next) :
    placed.Durable next.directory := by
  rw [syncToLsn_run] at ran
  split at ran
  · rcases @syncFile_cases os ledger sound with
      failed | ⟨directory, synced, grows, durable⟩
    · rw [bind_run_error failed] at ran
      cases ran
    · rw [bind_run_ok synced] at ran
      cases ran
      exact durable placed mem
  · next skipped =>
    cases ran
    exact sound.accounted placed mem (UInt64.not_lt.mp skipped)

theorem continues (continues : Continues ledger.state next)
    (settles : ledger.state.IsFull → ledger.Settled)
    (room : ledger.state.wal.nextLsn.toNat + 1 < 2 ^ 64) :
    Ledger.Sound { ledger with state := next } := by
  have above := UInt64.lt_iff_toNat_lt.mp sound.synced
  constructor
  · exact continues.hasFile
  · intro placed mem
    exact (sound.written placed mem).grows continues.grows
  · intro placed mem
    rcases continues.file with sameFile | isFull
    · rcases sound.current placed mem with durable | inOpen
      · exact .inl (durable.grows continues.grows)
      · exact .inr (sameFile.trans inOpen)
    · exact .inl ((settles isFull placed mem).grows continues.grows)
  · rw [continues.lastSynced]
    rcases continues.nextLsn with sameLsn | nextLsn
    · rw [sameLsn]
      exact sound.synced
    · rw [nextLsn, UInt64.lt_iff_toNat_lt, UInt64.toNat_add]
      show _ < (ledger.state.wal.nextLsn.toNat + 1) % 2 ^ 64
      omega
  · intro placed mem isSynced
    have before : placed.lsn ≤ ledger.state.wal.lastSyncedLsn := by
      rw [← continues.lastSynced]
      exact isSynced
    exact (sound.accounted placed mem before).grows continues.grows

theorem append {record : WalRecord} (settles : ledger.state.IsFull → ledger.Settled)
    (room : ledger.state.wal.nextLsn.toNat + 1 < 2 ^ 64) :
    (ledger.afterAppend host os record (Storage.append host os record ledger.state)).Sound := by
  obtain ⟨next, continues, out⟩ := @append_cases host os record ledger.state sound.hasFile
  have old := sound.continues continues settles room
  rcases out with ⟨fault, failed⟩ | ⟨ran, appended⟩
  · rw [failed]
    exact old
  obtain ⟨segment, file, isFile, found, ends⟩ := appended
  rw [ran]
  unfold afterAppend placedBy
  simp only [isFile]
  have size : next.directory.size (segmentName segment) = file.bytes.length := by
    unfold Directory.size
    rw [found]
  constructor
  · exact old.hasFile
  · rw [forall_mem_append, forall_mem_singleton]
    refine ⟨old.written, file, found, Nat.le_of_eq size, ?_⟩
    rw [size, take_length]
    exact ends
  · rw [forall_mem_append, forall_mem_singleton]
    exact ⟨old.current, .inr isFile⟩
  · exact old.synced
  · unfold Accounted
    rw [forall_mem_append, forall_mem_singleton]
    refine ⟨old.accounted, ?_⟩
    intro isSynced
    have notSynced : ¬ ledger.state.wal.nextLsn ≤ next.wal.lastSyncedLsn := by
      rw [continues.lastSynced, UInt64.not_le]
      exact sound.synced
    exact absurd isSynced notSynced

theorem step {call : LogCall × Os}
    (allowed : Allowed ledger call) : (ledger.step host call).Sound := by
  obtain ⟨call, os⟩ := call
  cases call with
  | append record => exact sound.append allowed.1 allowed.2
  | appendAsync record =>
    have same := @afterAppend_appendAsync host os record ledger.state ledger
    rw [Ledger.step, same]
    exact sound.append allowed.1 allowed.2
  | sync => exact sound.sync
  | syncToLsn lsn => exact sound.syncToLsn allowed
  | flushGroup lsns =>
    refine sound.syncToLsn ?_
    rcases foldl_max_mem lsns 0 with isZero | mem
    · rw [isZero]
      exact UInt64.lt_of_le_of_lt UInt64.zero_le sound.synced
    · exact allowed _ mem

end Ledger.Sound

theorem sound_opened {host : WalHost} {os : Os} {limit : UInt64} {directory : Directory}
    {opened : WalState} (isOpened : openWithSegmentLimit host os limit directory = .ok opened)
    (numbered : opened.wal.nextLsn ≠ 0) : Ledger.Sound { state := opened, placed := [] } := by
  have pos : 0 < opened.wal.nextLsn := by
    exact Nat.pos_of_ne_zero fun zero => numbered (UInt64.toNat_inj.mp zero)
  unfold openWithSegmentLimit at isOpened
  split at isOpened
  · cases isOpened
  · cases isOpened
    obtain ⟨file, found⟩ :=
      Directory.lookup_openAppend directory (segmentName (scanMaxSegment directory))
    exact
      { hasFile := ⟨_, file, rfl, found⟩, written := forall_mem_nil _
        current := forall_mem_nil _, synced := pos, accounted := forall_mem_nil _ }

/-- In every run of allowed calls on a log that was just opened, failing ones
included, the records up to the last synced number are durable, and
`sync_to_lsn` with the number of a record returns only when the record is
durable. -/
theorem group_commit_accounted
    {host : WalHost} {os : Os} {limit : UInt64} {directory : Directory} {opened : WalState}
    (isOpened : openWithSegmentLimit host os limit directory = .ok opened)
    (numbered : opened.wal.nextLsn ≠ 0) {calls : List (LogCall × Os)} {final : Ledger}
    (run : Run (fun ledger call => some (Ledger.step host ledger call)) Allowed
        { state := opened, placed := [] } calls final) :
    final.Accounted ∧
      ∀ placed ∈ final.placed, ∀ os next,
        syncToLsn os placed.lsn final.state = .ok () next → placed.Durable next.directory := by
  have sound : final.Sound := by
    refine run.invariant Ledger.Sound ?_ (sound_opened isOpened numbered)
    intro ledger call next before allowed stepped
    cases stepped
    exact before.step allowed
  refine ⟨sound.accounted, ?_⟩
  intro placed mem os next ran
  exact sound.durable_of_syncToLsn mem ran

namespace Example

def emptyLog (limit : UInt64) : WalState :=
  { directory := (∅ : Directory).openAppend (segmentName 0)
    wal :=
      { currentSegment := 0, file := some 0, nextLsn := 1
        segmentLimit := limit, lastSyncedLsn := 0 } }

theorem readAll_emptyLog (host : WalHost) (limit : UInt64) :
    readAll host (emptyLog limit).directory = .ok [] := by
  have opened := holds_empty.openAppend_max.1
  rw [holds_empty.scanMaxSegment_nil] at opened
  exact (opened.readAll_eq host).trans rfl

theorem openWithSegmentLimit_empty (host : WalHost) (limit : UInt64) :
    openWithSegmentLimit host (good 0) limit ∅ = .ok (emptyLog limit) := by
  have isFirst : lsnAfter host ((∅ : Directory).openAppend (segmentName 0)) = 1 := by
    unfold lsnAfter
    rw [show (∅ : Directory).openAppend (segmentName 0) =
      (emptyLog limit).directory from rfl, readAll_emptyLog]
    rfl
  unfold openWithSegmentLimit
  simp only [holds_empty.scanMaxSegment_nil, isFirst]
  rfl

def runCalls (limit : UInt64) (calls : List (LogCall × Os)) : Ledger :=
  calls.foldl (Ledger.step zeroHost) { state := emptyLog limit, placed := [] }

/-- Two records that one `fsync` makes durable. -/
def grouped : List (LogCall × Os) :=
  [(.appendAsync (.begin 1), good 5),
    (.appendAsync (.begin 2), good 6), (.flushGroup [1, 2], good 7)]

theorem run_grouped : Run (fun ledger call => some (Ledger.step zeroHost ledger call)) Allowed
      { state := emptyLog 1000, placed := [] } grouped
      (runCalls 1000 grouped) := by
  refine .cons ?_ rfl (.cons ?_ rfl (.cons ?_ rfl (.nil _)))
  · exact ⟨fun _ => forall_mem_nil _, by decide⟩
  · refine ⟨?_, by decide⟩
    rintro ⟨segment, isFile, full⟩
    cases isFile
    exact absurd full (by decide)
  · intro lsn mem
    have asked : lsn = 1 ∨ lsn = 2 := mem_pair.mp mem
    rcases asked with rfl | rfl
    · decide
    · decide

theorem group_commit_accounted_grouped :
    (runCalls 1000 grouped).Accounted ∧ (runCalls 1000 grouped).state.wal.lastSyncedLsn = 2 :=
  ⟨(group_commit_accounted (openWithSegmentLimit_empty zeroHost 1000)
    (by decide) run_grouped).1, rfl⟩

def leftBehind : List (LogCall × Os) :=
  [(.appendAsync (.begin 1), good 5), (.appendAsync (.begin 2), good 6), (.syncToLsn 2, good 7)]

def askedAhead : List (LogCall × Os) := [(.syncToLsn 5, good 5), (.append (.begin 1), good 6)]

theorem not_accounted {ledger : Ledger} {placed : Placed} (mem : placed ∈ ledger.placed)
    (isSynced : placed.lsn ≤ ledger.state.wal.lastSyncedLsn) (notEmpty : 0 < placed.stop)
    (unsynced :
      (ledger.state.directory.lookup (segmentName placed.segment)).map DiskFile.durable = some 0) :
    ¬ ledger.Accounted := by
  intro accounted
  obtain ⟨file, found, -, durable⟩ := accounted placed mem isSynced
  rw [found, Option.map_some, Option.some.injEq] at unsynced
  omega

/-- A segment is left behind with a record that no `fsync` has reached, and a
number counts as synced before its record is there. -/
theorem left_behind_and_asked_ahead :
    openWithSegmentLimit zeroHost (good 0) 1 ∅ = .ok (emptyLog 1) ∧
      (runCalls 1 leftBehind).state.wal.lastSyncedLsn = 2 ∧ ¬ (runCalls 1 leftBehind).Accounted ∧
      openWithSegmentLimit zeroHost (good 0) 1000 ∅ = .ok (emptyLog 1000) ∧
      ¬ (runCalls 1000 askedAhead).Accounted := by
  refine
    ⟨openWithSegmentLimit_empty zeroHost 1, rfl, ?_, openWithSegmentLimit_empty zeroHost 1000, ?_⟩
  · exact not_accounted mem_cons_self (by decide) (by decide) (by decide)
  · exact not_accounted mem_cons_self (by decide) (by decide) (by decide)

end Example

end TurboGP.Storage
