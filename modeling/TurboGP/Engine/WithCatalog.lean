import TurboGP.Engine.SnapshotRollback

/-! # The catalog after a WITH -/

namespace TurboGP.Engine

open Datasource Sql Txn Effect Finmap List

def WithClause.names (clause : WithClause) : List String := clause.ctes.map CteDef.name

theorem dropTables_run (ctes : List CteDef) (engine : SqlEngine) : ∃ next,
      ctes.forM (fun cte => dropTable cte.name) engine = .ok () next ∧
        ∀ name, next.catalog.lookup name =
          if name ∈ ctes.map CteDef.name then none else engine.catalog.lookup name := by
  induction ctes generalizing engine with
  | nil => exact ⟨engine, rfl, fun name => rfl⟩
  | cons cte rest ih =>
    obtain ⟨next, ran, dropped⟩ := ih { engine with catalog := engine.catalog.erase cte.name }
    refine ⟨next, ran, fun name => ?_⟩
    rw [dropped]
    simp only [FiniteMap.lookup_erase_eq, map_cons, mem_cons]
    by_cases later : name ∈ rest.map CteDef.name
    · simp [later]
    · simp [later]

variable {host : SqlHost} {engine : SqlEngine}

/-- A text that reads tables: a SELECT that names no view, a set query, or one
that is rewritten to such a text. -/
inductive ReadsTables (host : SqlHost)
    (views : Finmap (fun _ : String => ViewDef)) : List Char → Prop
  | malformed {sql : List Char} {error : Error} :
      (host.kind sql).isSavepoint = false → host.parse sql = .malformed error →
      ReadsTables host views sql
  | setQuery {sql : List Char}
      {evaluate : Catalog → Option MvccTxnManager → Except Fault QueryResult} :
      (host.kind sql).isSavepoint = false → host.parse sql = .setQuery evaluate →
      ReadsTables host views sql
  | select {sql : List Char} :
      (host.kind sql).isSavepoint = false → host.parse sql = .select →
      viewsIn host views sql = [] → ReadsTables host views sql
  | rewrite {sql : List Char} {rewrite : Rewrite} :
      (host.kind sql).isSavepoint = false → host.parse sql = .rewrite rewrite →
      ReadsTables host views rewrite.text → ReadsTables host views sql

/-- The tables other than those of some names, and the views, stay; no table
goes. -/
structure SameOutside (names : List String) (old new : SqlEngine) : Prop where
  views : new.views = old.views
  lookup : ∀ name, name ∉ names → new.catalog.lookup name = old.catalog.lookup name
  present : ∀ name, name ∈ old.catalog → name ∈ new.catalog

instance (names : List String) : IsPreorder SqlEngine (SameOutside names) where
  refl := fun _ => ⟨rfl, fun _ _ => rfl, fun _ => id⟩
  trans := fun _ _ _ first second =>
    ⟨second.views.trans first.views, fun name other =>
      (second.lookup name other).trans (first.lookup name other),
      fun name mem => second.present name (first.present name mem)⟩

theorem SameOutside.of_sameButClock (names : List String) (old new : SqlEngine)
    (same : SameButClock old new) : SameOutside names old new := by
  rw [same]
  exact ⟨rfl, fun _ _ => rfl, fun _ => id⟩

theorem SameOutside.insert {names : List String} {name : String} (engine : SqlEngine)
    (table : Table) (isName : name ∈ names) :
    SameOutside names engine { engine with catalog := engine.catalog.insert name table } := by
  refine ⟨rfl, fun tested other => ?_, fun tested mem => mem_insert.mpr (.inr mem)⟩
  rw [FiniteMap.lookup_insert_eq, if_neg]
  rintro rfl
  exact other isName

section

variable {host : SqlHost} {names : List String} {engine : SqlEngine}

theorem sameOutside_executeInner (depth : Nat) {sql : List Char}
    (txnId : Option Nat) (reads : ReadsTables host engine.views sql) :
    Moves (SameOutside names) engine (executeInner host depth sql txnId) := by
  induction depth generalizing engine sql txnId with
  | zero => exact .throw _
  | succ depth ih =>
    have looked := (@clock_cachedFor host engine (host.kind sql == .select) sql).weaken
      (SameOutside.of_sameButClock names)
    refine .bind looked fun cached next out => ?_
    have sameViews := (looked.reached out).views
    cases cached with
    | some result => exact .pure _
    | none =>
      have notSavepoint : (host.kind sql).isSavepoint = false := by
        cases reads <;> assumption
      rw [executeUncached_eq _ _ _ notSavepoint]
      have timed := (@clock_systemTimeRows host next sql).weaken (SameOutside.of_sameButClock names)
      refine .bind timed fun rows afterwards timing => ?_
      cases rows with
      | some result => exact .pure _
      | none =>
        have keptViews : afterwards.views = engine.views :=
          (timed.reached timing).views.trans sameViews
        rw [← keptViews] at reads
        cases reads with
        | malformed _ parsed =>
          rw [parsed]
          exact .throw _
        | setQuery _ parsed =>
          rw [parsed]
          exact .get_bind (.ofExcept _)
        | select _ parsed noViews =>
          rw [parsed]
          have nothing : materializeViewsInSql host (executeInner host depth)
              sql afterwards = .ok () afterwards := by
            unfold materializeViewsInSql
            rw [get_bind_run, noViews]
            rfl
          refine .bind ?_ fun _ _ _ => ?_
          · refine .unchanged ?_
            unfold finalState
            rw [nothing]
          · exact .get_bind (.ofExcept _)
        | rewrite _ parsed readsRewritten =>
          rw [parsed]
          refine .bind (ih txnId readsRewritten) ?_
          exact fun _ _ _ => .ofExcept _

theorem catalog_executeInner {depth : Nat} {sql : List Char} {txnId : Option Nat}
    (reads : ReadsTables host engine.views sql) :
    (finalState (executeInner host depth sql txnId) engine).catalog = engine.catalog := by
  have moved : Moves (SameOutside []) engine (executeInner host depth sql txnId) :=
    sameOutside_executeInner depth txnId reads
  exact ext_lookup fun name => moved.lookup name not_mem_nil

theorem sameOutside_withMut {name : String} (closure : TableM Unit) (isName : name ∈ names) :
    Moves (SameOutside names) engine (onCore (withMut name closure)) := by
  unfold Moves finalState onCore withMut
  cases engine.catalog.lookup name with
  | none => exact ⟨rfl, fun _ _ => rfl, fun _ => id⟩
  | some table =>
    simp only
    cases closure table with
    | ok value next | error fault next => exact .insert engine next isName

theorem makesTables_executeInner (host : SqlHost) (depth : Nat) (names : List String) :
    MakesTables host (executeInner host depth) id (SameOutside names)
      (ReadsTables host) (· ∈ names) where
  catalog := fun _ => rfl
  views := fun kept => kept.views
  text := fun txnId reads => .of_moves (sameOutside_executeInner depth txnId reads)
  register := fun isName => .of_moves (.modify (.insert _ _ isName))
  append := fun closure isName => .of_moves (sameOutside_withMut closure isName)

end

/-- No table has the name of a CTE. -/
def WithClause.Fresh (clause : WithClause) (engine : SqlEngine) : Prop :=
  ∀ name ∈ clause.names, name ∉ engine.catalog

/-- There is no CTE, or the anchor of the first one fails. -/
def RegistersNone (inner : List Char → Option Nat → SqlM QueryResult) (clause : WithClause)
    (txnId : Option Nat) (engine : SqlEngine) : Prop :=
  ∀ cte, clause.ctes.head? = some cte →
    ∃ fault next, inner cte.anchor txnId engine = .error fault next

theorem executeParts_cons {inner : List Char → Option Nat → SqlM QueryResult}
    {clause : WithClause} {txnId : Option Nat} {cte : CteDef} {rest : List CteDef}
    (first : clause.ctes = cte :: rest) :
    executeParts host inner clause txnId =
      materializeCte host inner clause.maxRecursion txnId cte >>= fun _ =>
        executeParts host inner { clause with ctes := rest } txnId := by
  unfold executeParts
  rw [first, ← bind_assoc]
  rfl

theorem mem_materializeCte {depth maxRecursion : Nat} {txnId : Option Nat} {names : List String}
    {cte : CteDef} (isName : cte.name ∈ names)
    (read : ∀ text ∈ cte.anchor :: cte.recursive.toList, ReadsTables host engine.views text)
    {result : QueryResult} {middle : SqlEngine}
    (ran : executeInner host depth cte.anchor txnId engine = .ok result middle) :
    cte.name ∈ (finalState
      (materializeCte host (executeInner host depth) maxRecursion txnId cte) engine).catalog := by
  have makes := makesTables_executeInner host depth names
  have anchored := (makes.text txnId (read _ mem_cons_self)).moves.reached ran
  unfold materializeCte
  rw [finalState_bind_ok ran]
  refine @SameOutside.present names _ _ (Moves.after fun _ next registers => ?_)
    cte.name (mem_insert.mpr (.inl rfl))
  split
  · exact .pure _
  · next text isRecursive =>
    have sameViews : next.views = engine.views := by
      cases registers
      exact anchored.views
    refine (makes.recursiveRounds isName txnId _ ?_).moves
    rw [sameViews]
    exact read text (by simp [isRecursive])

/-- Dropping the tables does not fail. -/
theorem executeParts_of_failed {inner : List Char → Option Nat → SqlM QueryResult}
    {clause : WithClause} {txnId : Option Nat} {fault : Fault} {next : SqlEngine}
    (failed : executeWith host inner clause txnId engine = .error fault next) :
    executeParts host inner clause txnId engine = .error fault next := by
  rw [executeWith_eq] at failed
  cases out : executeParts host inner clause txnId engine with
  | error _ stop => rwa [bind_run_error out] at failed
  | ok result stop =>
    obtain ⟨dropped, ran, -⟩ := dropTables_run clause.ctes stop
    rw [bind_run_ok out, bind_run_ok ran] at failed
    cases failed

section

variable {depth : Nat} {clause : WithClause} {txnId : Option Nat}
  (read : ∀ text ∈ clause.texts, ReadsTables host engine.views text)

include read

theorem sameOutside_executeParts : Moves (SameOutside clause.names) engine
      (executeParts host (executeInner host depth) clause txnId) :=
  ((makesTables_executeInner host depth clause.names).executeParts txnId
    (fun cte mem => mem_map.mpr ⟨cte, mem, rfl⟩) read).moves

theorem catalog_executeParts (none : RegistersNone (executeInner host depth) clause txnId engine) :
    (finalState (executeParts host (executeInner host depth) clause txnId) engine).catalog =
      engine.catalog := by
  unfold executeParts
  cases ctes : clause.ctes with
  | nil => exact catalog_executeInner (read _ (mem_append_right _ (by simp)))
  | cons cte rest =>
    obtain ⟨fault, next, failed⟩ := none cte (by rw [ctes]; rfl)
    have anchor := @catalog_executeInner host engine depth cte.anchor txnId
      (read _ (by simp [WithClause.texts, ctes]))
    have stopped : (cte :: rest).forM (materializeCte host (executeInner host depth)
        clause.maxRecursion txnId) engine = .error fault next :=
      bind_run_error (bind_run_error failed)
    unfold finalState at anchor ⊢
    rw [failed] at anchor
    rw [bind_run_error stopped]
    exact anchor

/-- The table of the first CTE is there at the end, however the parts end. -/
theorem mem_executeParts {cte : CteDef} {rest : List CteDef} (first : clause.ctes = cte :: rest)
    {result : QueryResult} {middle : SqlEngine}
    (ran : executeInner host depth cte.anchor txnId engine = .ok result middle) :
    cte.name ∈
      (finalState (executeParts host (executeInner host depth) clause txnId) engine).catalog := by
  have makes := makesTables_executeInner host depth clause.names
  have isName : cte.name ∈ clause.names := by simp [WithClause.names, first]
  have ofCte : ∀ text ∈ cte.anchor :: cte.recursive.toList, text ∈ clause.texts := by
    intro text mem
    simp only [WithClause.texts, first, flatMap_cons, append_assoc]
    exact mem_append_left _ mem
  rw [executeParts_cons first]
  refine @SameOutside.present clause.names _ _ (Moves.after fun _ next materialized => ?_)
    cte.name (mem_materializeCte isName (fun text mem => read text (ofCte text mem)) ran)
  have sameViews := ((makes.materializeCte _ txnId isName fun text mem =>
    read text (ofCte text mem)).moves.reached materialized).views
  refine (makes.executeParts txnId (fun other mem => ?_) fun text mem => ?_).moves
  · simp only [WithClause.names, first, map_cons, mem_cons]
    exact .inr (mem_map.mpr ⟨other, mem, rfl⟩)
  · rw [sameViews]
    refine read text ?_
    simp only [WithClause.texts, first, flatMap_cons, append_assoc]
    exact mem_append_right _ mem

end

theorem executeInner_select {depth : Nat} {sql : List Char} (txnId : Option Nat)
    (notSavepoint : (host.kind sql).isSavepoint = false) (parsed : host.parse sql = .select)
    (notAsOf : parseForSystemTime host.unicode sql = .ok none)
    (noViews : viewsIn host engine.views sql = [])
    (cold : engine.resultCache.lookup (host.hashSql sql) = none) :
    executeInner host (depth + 1) sql txnId engine = (ofExcept
        (host.executeSelect sql engine.catalog engine.indexManager
          engine.visibility) : SqlM QueryResult) engine := by
  have missed : cachedFor host (host.kind sql == .select) sql engine = .ok none engine := by
    unfold cachedFor
    split
    · unfold cachedResult
      rw [get_bind_run, cold]
      rfl
    · rfl
  have untimed : systemTimeRows host sql engine = .ok none engine := by
    unfold systemTimeRows
    rw [notAsOf]
    rfl
  have nothing :
      materializeViewsInSql host (executeInner host depth) sql engine = .ok () engine := by
    unfold materializeViewsInSql
    rw [get_bind_run, noViews]
    rfl
  show executeInnerVia host (executeInner host depth) depth sql txnId engine = _
  unfold executeInnerVia
  rw [bind_run_ok missed]
  simp only
  rw [executeUncached_eq _ _ _ notSavepoint]
  unfold executeStatement
  rw [bind_run_ok untimed]
  rw [parsed]
  exact (bind_run_ok nothing).trans rfl

namespace Example

def unknownText : List Char := "SELECT v FROM u".toList

/-- SELECT counts the rows of `t`, any other SELECT is one of the table `u`,
which is missing. -/
def withHost : SqlHost :=
  { plainSqlHost (fun _ => .ok none) with
    executeSelect := fun sql catalog _ _ =>
      if sql = countText then .ok (countRows catalog)
      else .error (.error (.notFound "table 'u'")) }

def counting (name : String) (outerQuery : List Char) : WithClause :=
  { ctes := [{ name := name, anchor := countText, recursive := none }]
    outerQuery := outerQuery
    maxRecursion := 0 }

/-- Its anchor fails. -/
def readingUnknown : WithClause :=
  { ctes := [{ name := "c", anchor := unknownText, recursive := none }]
    outerQuery := countText
    maxRecursion := 0 }

theorem executeInner_withHost {sql : List Char} (engine : SqlEngine)
    (parsed : withHost.parse sql = .select) (notAsOf : parseForSystemTime withHost.unicode sql =
      .ok none) (notSavepoint : (withHost.kind sql).isSavepoint = false)
    (noViews : engine.views = ∅) (cold : engine.resultCache = ∅) :
    executeInner withHost 1 sql none engine = (ofExcept (withHost.executeSelect sql engine.catalog
        engine.indexManager engine.visibility) : SqlM QueryResult) engine := by
  refine executeInner_select none notSavepoint parsed notAsOf ?_ ?_
  · rw [noViews]
    exact viewsIn_empty withHost sql
  · rw [cold]
    exact lookup_empty _

def counted (name : String) : SqlEngine :=
  { engineWith ∅ with
    catalog := (engineWith ∅).catalog.insert name
      (resultToTable withHost.unicode name (countRows (engineWith ∅).catalog)) }

theorem materialize_counting (name : String) (outerQuery : List Char) :
    (counting name outerQuery).ctes.forM
        (materializeCte withHost (executeInner withHost 1) 0 none) (engineWith ∅) =
      .ok () (counted name) := by
  have anchor : executeInner withHost 1 countText none (engineWith ∅) =
      .ok (countRows (engineWith ∅).catalog) (engineWith ∅) :=
    executeInner_withHost (engineWith ∅) rfl rfl rfl rfl rfl
  have registered : materializeCte withHost (executeInner withHost 1) 0 none
          { name := name, anchor := countText, recursive := none } (engineWith ∅) =
        .ok () (counted name) :=
    (bind_run_ok anchor).trans rfl
  exact bind_run_ok registered

theorem executeWith_counting (name : String) :
    executeWith withHost (executeInner withHost 1) (counting name countText) none (engineWith ∅) =
      .ok (countRows (counted name).catalog)
        { counted name with
          catalog := (counted name).catalog.erase name } := by
  have outer : executeInner withHost 1 countText none (counted name) =
      .ok (countRows (counted name).catalog) (counted name) :=
    executeInner_withHost (counted name) rfl rfl rfl rfl rfl
  rw [executeWith_eq]
  exact bind_run_ok (Eq.trans (bind_run_ok (materialize_counting name countText)) outer)

theorem readsTables_withHost {text : List Char} (known : text = countText ∨ text = unknownText) :
    ReadsTables withHost (engineWith ∅).views text := by
  rcases known with rfl | rfl
  · exact .select rfl rfl (viewsIn_empty withHost countText)
  · exact .select rfl rfl (viewsIn_empty withHost unknownText)

end Example

end TurboGP.Engine
