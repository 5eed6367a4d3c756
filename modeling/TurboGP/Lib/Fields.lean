import Mathlib.Data.List.Basic
import Mathlib.Data.List.Infix
import Mathlib.Data.List.TakeWhile

/-!
# Separated fields and lines

A text of fields that stand between separators, and a text of lines that each
end with a newline.
-/

namespace Fields

open List

variable {α : Type} [DecidableEq α]

def joined (sep : α) : List (List α) → List α
  | [] => []
  | [field] => field
  | field :: next :: rest => field ++ sep :: joined sep (next :: rest)

/-- At most `limit` parts; the last one keeps its separators. -/
def splitn (sep : α) : Nat → List α → List (List α)
  | 0, _ => []
  | 1, text => [text]
  | limit + 2, text =>
    match text.dropWhile (· ≠ sep) with
    | [] => [text]
    | _ :: rest =>
      text.takeWhile (· ≠ sep) ::
        splitn sep (limit + 1) rest

def rsplitOnce (sep : α) (text : List α) : Option (List α × List α) :=
  match text.reverse.dropWhile (· ≠ sep) with
  | [] => none
  | _ :: before => some (before.reverse, (text.reverse.takeWhile (· ≠ sep)).reverse)

/-- The fields that are left when a joined text is cut to its first elements;
the last one of them may be shorter. -/
def cutFields : List (List α) → Nat → List (List α)
  | [], _ => []
  | [field], kept => [field.take kept]
  | field :: next :: rest, kept =>
    if kept ≤ field.length then [field.take kept]
    else field :: cutFields (next :: rest) (kept - field.length - 1)

section

variable {sep : α} {fields : List (List α)} {field : List α}

omit [DecidableEq α] in
theorem cutFields_ne_nil (nonempty : fields ≠ []) (kept : Nat) : cutFields fields kept ≠ [] := by
  cases fields with
  | nil => exact absurd rfl nonempty
  | cons field rest =>
    cases rest with
    | nil => exact cons_ne_nil _ _
    | cons next rest =>
      rw [cutFields]
      split <;> exact cons_ne_nil _ _

omit [DecidableEq α] in
theorem joined_cons (field : List α) {rest : List (List α)} (more : rest ≠ []) :
    joined sep (field :: rest) = field ++ sep :: joined sep rest := by
  cases rest with
  | nil => exact absurd rfl more
  | cons next rest => rfl

omit [DecidableEq α] in
theorem joined_append {first second : List (List α)} (nonempty : first ≠ []) (more : second ≠ []) :
    joined sep (first ++ second) =
      joined sep first ++ sep :: joined sep second := by
  induction first with
  | nil => exact absurd rfl nonempty
  | cons field rest joinedRest =>
    by_cases empty : rest = []
    · subst empty
      exact joined_cons field more
    · have appended : rest ++ second ≠ [] := by simp [empty]
      rw [cons_append, joined_cons field appended, joinedRest empty,
        joined_cons field empty, append_assoc, cons_append]

omit [DecidableEq α] in
theorem joined_concat (nonempty : fields ≠ []) (last : List α) :
    joined sep (fields ++ [last]) = joined sep fields ++ sep :: last :=
  joined_append nonempty (cons_ne_nil _ _)

omit [DecidableEq α] in
theorem forall_mem_joined (P : α → Prop) (ofSeparator : P sep) {fields : List (List α)}
    (ofFields : ∀ field ∈ fields, ∀ x ∈ field, P x) : ∀ x ∈ joined sep fields, P x := by
  induction fields with
  | nil => exact forall_mem_nil _
  | cons field rest ih =>
    have ofField := ofFields field mem_cons_self
    have ofTail := ih fun field member => ofFields field (mem_cons_of_mem _ member)
    by_cases more : rest = []
    · subst more
      exact ofField
    · rw [joined_cons field more, forall_mem_append]
      exact ⟨ofField, forall_mem_cons.mpr ⟨ofSeparator, ofTail⟩⟩

theorem splitAt_separator (rest : List α) (clean : sep ∉ field) :
    (field ++ sep :: rest).takeWhile (· ≠ sep) = field ∧
      (field ++ sep :: rest).dropWhile (· ≠ sep) = sep :: rest := by
  have keeps : ∀ x ∈ field, decide (x ≠ sep) = true := by
    intro x mem
    exact decide_eq_true (fun same => clean (same ▸ mem))
  constructor
  · rw [takeWhile_append_of_pos keeps, takeWhile_cons_of_neg (by simp), append_nil]
  · rw [dropWhile_append_of_pos keeps, dropWhile_cons_of_neg (by simp)]

theorem dropWhile_of_clean (clean : sep ∉ field) : field.dropWhile (· ≠ sep) = [] := by
  rw [dropWhile_eq_nil_iff]
  intro x mem
  exact decide_eq_true (fun same => clean (same ▸ mem))

@[simp]
theorem splitn_cons (clean : sep ∉ field) (limit : Nat) (rest : List α) :
    splitn sep (limit + 2) (field ++ sep :: rest) =
      field :: splitn sep (limit + 1) rest := by
  obtain ⟨taken, dropped⟩ := splitAt_separator rest clean
  rw [splitn, dropped, taken]

@[simp]
theorem splitn_of_clean (clean : sep ∉ field) (limit : Nat) :
    splitn sep (limit + 1) field = [field] := by
  cases limit with
  | zero => rfl
  | succ limit => rw [splitn, dropWhile_of_clean clean]

theorem splitn_joined {limit : Nat} (clean : ∀ field ∈ fields, sep ∉ field) (nonempty : fields ≠ [])
    (fits : fields.length ≤ limit) : splitn sep limit (joined sep fields) = fields := by
  induction fields generalizing limit with
  | nil => exact absurd rfl nonempty
  | cons field rest splitsRest =>
    have fieldClean := clean field mem_cons_self
    have restClean : ∀ field ∈ rest, sep ∉ field := fun field mem =>
      clean field (mem_cons_of_mem _ mem)
    rw [length_cons] at fits
    by_cases more : rest = []
    · subst more
      obtain ⟨limit, rfl⟩ := Nat.exists_eq_add_of_le' fits
      exact splitn_of_clean fieldClean _
    · have positive := length_pos_iff.mpr more
      obtain ⟨limit, rfl⟩ : ∃ smaller, limit = smaller + 2 := ⟨limit - 2, by omega⟩
      rw [joined_cons field more, splitn_cons fieldClean, splitsRest restClean more (by omega)]

theorem splitn_joined_concat {limit : Nat} (last : List α)
    (clean : ∀ field ∈ fields, sep ∉ field) (full : fields.length + 1 = limit) :
    splitn sep limit (joined sep (fields ++ [last])) = fields ++ [last] := by
  induction fields generalizing limit with
  | nil =>
    subst full
    rfl
  | cons field rest splitsRest =>
    have fieldClean := clean field mem_cons_self
    have restClean : ∀ field ∈ rest, sep ∉ field := fun field mem =>
      clean field (mem_cons_of_mem _ mem)
    have appended : rest ++ [last] ≠ [] := by simp
    rw [length_cons] at full
    subst full
    rw [cons_append, joined_cons field appended,
      splitn_cons fieldClean, splitsRest restClean rfl]

theorem rsplitOnce_of_clean {text : List α} (clean : sep ∉ text) : rsplitOnce sep text = none := by
  have reversed : sep ∉ text.reverse := by
    rwa [mem_reverse]
  rw [rsplitOnce, dropWhile_of_clean reversed]

theorem rsplitOnce_append (before : List α) {last : List α} (clean : sep ∉ last) :
    rsplitOnce sep (before ++ sep :: last) = some (before, last) := by
  have reversed : sep ∉ last.reverse := by
    rwa [mem_reverse]
  have turned :
      (before ++ sep :: last).reverse = last.reverse ++ sep :: before.reverse := by
    simp
  obtain ⟨taken, dropped⟩ := splitAt_separator before.reverse reversed
  rw [rsplitOnce, turned, dropped, taken]
  simp only [reverse_reverse]

omit [DecidableEq α] in
theorem joined_cutFields (fields : List (List α)) (kept : Nat) :
    joined sep (cutFields fields kept) = (joined sep fields).take kept := by
  induction fields generalizing kept with
  | nil => simp [cutFields, joined]
  | cons field rest cutsRest =>
    cases rest with
    | nil => rfl
    | cons next rest =>
      rw [cutFields, joined_cons field (cons_ne_nil _ _)]
      by_cases inField : kept ≤ field.length
      · rw [if_pos inField, take_append_of_le_length inField]
        rfl
      · obtain ⟨beyond, rfl⟩ : ∃ beyond, kept = field.length + (beyond + 1) :=
          ⟨kept - field.length - 1, by omega⟩
        have left : field.length + (beyond + 1) - field.length - 1 = beyond := by omega
        rw [if_neg inField, left, joined_cons field (cutFields_ne_nil (cons_ne_nil _ _) _),
          cutsRest beyond, take_length_add_append, take_succ_cons]

end

/-- The lines that a newline ends, and what follows the last newline. -/
def lines (newline : α) : List α → List (List α) × List α
  | [] => ([], [])
  | x :: rest =>
    let (complete, tail) := lines newline rest
    if x = newline then ([] :: complete, tail)
    else
      match complete with
      | [] => ([], x :: tail)
      | line :: more => ((x :: line) :: more, tail)

def unlines (newline : α) (texts : List (List α)) : List α := texts.flatMap (· ++ [newline])

section

variable {newline : α}

theorem lines_of_clean {text : List α} (clean : newline ∉ text) :
    lines newline text = ([], text) := by
  induction text with
  | nil => rfl
  | cons x rest linesRest =>
    rw [mem_cons, not_or] at clean
    rw [lines, linesRest clean.2]
    simp only [if_neg (Ne.symm clean.1)]

theorem lines_append {line : List α} (clean : newline ∉ line) (rest : List α) :
    lines newline (line ++ newline :: rest) =
      (line :: (lines newline rest).1, (lines newline rest).2) := by
  induction line with
  | nil => simp [lines]
  | cons x line linesLine =>
    rw [mem_cons, not_or] at clean
    rw [cons_append, lines, linesLine clean.2]
    simp only [if_neg (Ne.symm clean.1)]

theorem lines_unlines {texts : List (List α)} {tail : List α}
    (clean : ∀ text ∈ texts, newline ∉ text) (tailClean : newline ∉ tail) :
    lines newline (unlines newline texts ++ tail) = (texts, tail) := by
  induction texts with
  | nil => exact lines_of_clean tailClean
  | cons text rest linesRest =>
    have split : unlines newline (text :: rest) ++ tail =
        text ++ newline :: (unlines newline rest ++ tail) := by
      simp [unlines]
    rw [split, lines_append (clean text mem_cons_self), linesRest fun text mem =>
        clean text (mem_cons_of_mem _ mem)]

end

end Fields
