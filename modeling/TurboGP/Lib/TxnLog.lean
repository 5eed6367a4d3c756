import Mathlib.Data.List.Basic

/-!
# Replay of a log of transactions

A statement belongs to a transaction or stands alone; replay keeps those that
stand alone and those whose transaction has a commit marker anywhere in the
log.
-/

namespace TxnLog

open List

universe u v

variable {ι : Type u} {τ : Type v}

inductive Entry (ι : Type u) (τ : Type v)
  | begin (id : ι)
  | commit (id : ι)
  | rollback (id : ι)
  | statement (owner : Option ι) (text : τ)

namespace Entry

def commitId : Entry ι τ → Option ι
  | commit id => some id
  | _ => none

def owner : Entry ι τ → Option ι
  | statement owner _ => owner
  | _ => none

/-- The text of a statement that stands alone or whose owner is listed. -/
def selected [DecidableEq ι] (ids : List ι) : Entry ι τ → Option τ
  | statement none text => some text
  | statement (some id) text => if id ∈ ids then some text else none
  | _ => none

end Entry

def committed (log : List (Entry ι τ)) : List ι := log.filterMap Entry.commitId

def owners (log : List (Entry ι τ)) : List ι := log.filterMap Entry.owner

theorem committed_append (first second : List (Entry ι τ)) :
    committed (first ++ second) = committed first ++ committed second :=
  filterMap_append

theorem owners_append (first second : List (Entry ι τ)) :
    owners (first ++ second) = owners first ++ owners second :=
  filterMap_append

variable [DecidableEq ι]

def texts (ids : List ι) (log : List (Entry ι τ)) : List τ := log.filterMap (Entry.selected ids)

def replayed (log : List (Entry ι τ)) : List τ := texts (committed log) log

theorem texts_append (ids : List ι) (first second : List (Entry ι τ)) :
    texts ids (first ++ second) = texts ids first ++ texts ids second :=
  filterMap_append

theorem texts_congr {ids others : List ι} {log : List (Entry ι τ)}
    (same : ∀ id ∈ owners log, id ∈ ids ↔ id ∈ others) : texts ids log = texts others log := by
  refine filterMap_congr fun entry mem => ?_
  cases entry with
  | begin id | commit id | rollback id => rfl
  | statement owner text =>
    cases owner with
    | none => rfl
    | some id =>
      have owned : id ∈ owners log := mem_filterMap.mpr ⟨_, mem, rfl⟩
      simp only [Entry.selected, same id owned]

/-- What happened: the open transaction, the statements that took effect, and
those that wait for the open transaction. -/
structure Ledger (ι : Type u) (τ : Type v) where
  current : Option ι
  kept : List τ
  pending : List τ

def Ledger.empty : Ledger ι τ :=
  { current := none, kept := [], pending := [] }

/-- Replay executes what took effect, and would go on with the statements of
the open transaction if it committed now. -/
structure Tracks (log : List (Entry ι τ)) (ledger : Ledger ι τ) : Prop where
  kept : replayed log = ledger.kept
  pending : ∀ id, ledger.current = some id →
      id ∉ committed log ∧ texts (committed log ++ [id]) log = ledger.kept ++ ledger.pending

namespace Tracks

variable {log : List (Entry ι τ)} {ledger : Ledger ι τ} {id : ι} {text : τ}

theorem nil (current : Option ι) :
    Tracks ([] : List (Entry ι τ)) { current := current, kept := [], pending := [] } :=
  ⟨rfl, fun _ _ => ⟨not_mem_nil, rfl⟩⟩

variable (tracks : Tracks log ledger)

include tracks

theorem begin (uncommitted : id ∉ committed log) (fresh : id ∉ owners log) :
    Tracks (log ++ [.begin id]) { current := some id, kept := ledger.kept, pending := [] } := by
  have sameIds : committed (log ++ [.begin id]) = committed log := by
    rw [committed_append]
    exact append_nil _
  have sameTexts : ∀ ids, texts ids (log ++ [.begin id]) = texts ids log := by
    intro ids
    rw [texts_append]
    exact append_nil _
  constructor
  · unfold replayed
    rw [sameIds, sameTexts]
    exact tracks.kept
  · rintro other ⟨⟩
    rw [sameIds, sameTexts, append_nil]
    refine ⟨uncommitted, ?_⟩
    rw [← tracks.kept]
    refine texts_congr fun owner owned => ?_
    have differs : owner ≠ id := fun same => fresh (same ▸ owned)
    rw [mem_append, mem_singleton]
    exact or_iff_left differs

theorem standalone (closed : ledger.current = none) :
    Tracks (log ++ [.statement none text]) { ledger with kept := ledger.kept ++ [text] } := by
  have sameIds : committed (log ++ [.statement none text]) = committed log := by
    rw [committed_append]
    exact append_nil _
  constructor
  · unfold replayed
    rw [sameIds, texts_append]
    exact congrArg (· ++ [text]) tracks.kept
  · intro id isOpen
    cases closed.symm.trans isOpen

theorem owned (isOpen : ledger.current = some id) : Tracks (log ++ [.statement (some id) text])
      { ledger with pending := ledger.pending ++ [text] } := by
  obtain ⟨uncommitted, waiting⟩ := tracks.pending id isOpen
  have sameIds : committed (log ++ [.statement (some id) text]) = committed log := by
    rw [committed_append]
    exact append_nil _
  have skipped : texts (committed log) [.statement (some id) text] = [] := by
    unfold texts
    rw [filterMap_cons_none]
    · rfl
    · exact if_neg uncommitted
  have taken : texts (committed log ++ [id]) [.statement (some id) text] = [text] := by
    unfold texts
    rw [filterMap_cons_some]
    · rfl
    · exact if_pos (mem_append_right _ (mem_singleton.mpr rfl))
  constructor
  · unfold replayed
    rw [sameIds, texts_append, skipped, append_nil]
    exact tracks.kept
  · intro other isOther
    cases isOpen.symm.trans isOther
    rw [sameIds, texts_append, taken, waiting, append_assoc]
    exact ⟨uncommitted, rfl⟩

theorem commit (isOpen : ledger.current = some id) : Tracks (log ++ [.commit id])
      { current := none, kept := ledger.kept ++ ledger.pending, pending := [] } := by
  obtain ⟨-, waiting⟩ := tracks.pending id isOpen
  constructor
  · unfold replayed
    rw [committed_append, texts_append]
    exact (append_nil _).trans waiting
  · rintro other ⟨⟩

theorem rollback :
    Tracks (log ++ [.rollback id]) { current := none, kept := ledger.kept, pending := [] } := by
  have sameIds : committed (log ++ [.rollback id]) = committed log := by
    rw [committed_append]
    exact append_nil _
  constructor
  · unfold replayed
    rw [sameIds, texts_append]
    exact (append_nil _).trans tracks.kept
  · rintro other ⟨⟩

end Tracks

end TxnLog
