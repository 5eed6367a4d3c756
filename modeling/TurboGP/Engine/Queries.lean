import TurboGP.Engine.Execute
import TurboGP.Engine.EngineMoves

/-! # What queries read and change -/

namespace TurboGP.Engine

open Datasource Sql Sql.Text Txn Effect List

/-- Statements that `execute_inner` takes before any parser. -/
def StatementKind.isSavepoint : StatementKind → Bool
  | .savepoint | .rollbackTo | .release => true
  | _ => false

theorem executeUncached_eq {host : SqlHost} {sql : List Char}
    (inner : List Char → Option Nat → SqlM QueryResult) (depth : Nat) (txnId : Option Nat)
    (notSavepoint : (host.kind sql).isSavepoint = false) :
    executeUncached host inner depth sql txnId = executeStatement host inner depth sql txnId := by
  unfold executeUncached
  cases kind : host.kind sql with
  | savepoint | rollbackTo | release =>
    rw [kind] at notSavepoint
    cases notSavepoint
  | _ => rfl

def WithClause.texts (clause : WithClause) : List (List Char) :=
  clause.ctes.flatMap (fun cte => cte.anchor :: cte.recursive.toList) ++ [clause.outerQuery]

/-- A WITH up to the removal of its tables. -/
def executeParts (host : SqlHost) (inner : List Char → Option Nat → SqlM QueryResult)
    (clause : WithClause) (txnId : Option Nat) : SqlM QueryResult := do
  clause.ctes.forM (materializeCte host inner clause.maxRecursion txnId)
  inner clause.outerQuery txnId

theorem executeWith_eq (host : SqlHost) (inner : List Char → Option Nat → SqlM QueryResult)
    (clause : WithClause) (txnId : Option Nat) :
    executeWith host inner clause txnId = (do
      let res ← executeParts host inner clause txnId
      clause.ctes.forM (fun cte => dropTable cte.name)
      return res) := by
  unfold executeWith executeParts
  rw [bind_assoc]

theorem viewsIn_empty (host : SqlHost) (sql : List Char) : viewsIn host ∅ sql = [] := by
  refine filterMap_eq_nil_iff.mpr fun name _ => ?_
  rfl

def SqlHost.parts (host : SqlHost) (views : Finmap (fun _ : String => ViewDef))
    (sql : List Char) : List (List Char) :=
  match host.parse sql with
  | .with clause => clause.texts
  | .rewrite rewrite => [rewrite.text]
  | .select => (viewsIn host views sql).map Prod.snd
  | _ => []

/-- A parsed text that reads; a WITH reads, but caches its answer. -/
def Parsed.Reads (withAllowed : Bool) : Parsed → Prop
  | .malformed _ | .setQuery _ | .rewrite _ | .select => True
  | .with _ => withAllowed = true
  | _ => False

inductive IsQuery (host : SqlHost)
    (views : Finmap (fun _ : String => ViewDef)) (withAllowed : Bool) :
    List Char → Prop
  | intro {sql : List Char} :
      (host.kind sql).isSavepoint = false → (host.parse sql).Reads withAllowed →
      (∀ text ∈ host.parts views sql, IsQuery host views withAllowed text) →
      IsQuery host views withAllowed sql

/-- The engine without what a statement on the swapped-in catalog may change:
the catalog, the savepoints and the count of clock readings. -/
def SqlEngine.beside (engine : SqlEngine) : SqlEngine :=
  { engine with catalog := ∅, savepoints := [], clockReads := 0 }

def SameBeside (old new : SqlEngine) : Prop := new.beside = old.beside

instance : IsPreorder SqlEngine SameBeside where
  refl := fun _ => rfl
  trans := fun _ _ _ first second => Eq.trans second first

/-- What a query keeps: the views, and everything beside the catalog unless
it may be a WITH. -/
structure QueryKeeps (withAllowed : Bool) (old new : SqlEngine) : Prop where
  views : new.views = old.views
  beside : withAllowed = false → SameBeside old new

namespace QueryKeeps

variable {withAllowed : Bool} {old new : SqlEngine}

instance : IsPreorder SqlEngine (QueryKeeps withAllowed) where
  refl := fun _ => ⟨rfl, fun _ => rfl⟩
  trans := fun _ _ _ first second =>
    ⟨second.views.trans first.views, fun off => Eq.trans (second.beside off) (first.beside off)⟩

theorem of_sameBeside (same : SameBeside old new) : QueryKeeps withAllowed old new :=
  ⟨(congrArg SqlEngine.views same :), fun _ => same⟩

end QueryKeeps

def SqlEngine.withSession (txnManager : TxnManager)
    (savepoints : List (List Char × Catalog)) (engine : SqlEngine) :
    SqlEngine :=
  { engine with txnManager := txnManager, savepoints := savepoints }

section

variable {host : SqlHost} {withAllowed : Bool} {txnManager : TxnManager}
  {savepoints : List (List Char × Catalog)} {engine : SqlEngine}

def ReadsOnly {α : Type} (txnManager : TxnManager)
    (savepoints : List (List Char × Catalog)) (withAllowed : Bool)
    (engine : SqlEngine) (prog : SqlM α) : Prop :=
  Blind (SqlEngine.withSession txnManager savepoints) (QueryKeeps withAllowed) engine prog

theorem readsOnly_readClock :
    ReadsOnly txnManager savepoints withAllowed engine (onCore (readClock host.toHost)) :=
  ⟨rfl, .of_sameBeside rfl⟩

theorem readsOnly_cachedResult (sql : List Char) :
    ReadsOnly txnManager savepoints withAllowed engine (cachedResult host sql) := by
  refine .get_bind rfl ?_
  split
  · exact .pure _
  · refine .bind readsOnly_readClock fun now _ _ => ?_
    split
    · exact .pure _
    · exact .pure _

theorem readsOnly_cachedFor (answered : Bool) (sql : List Char) :
    ReadsOnly txnManager savepoints withAllowed engine (cachedFor host answered sql) := by
  unfold cachedFor
  split
  · exact readsOnly_cachedResult sql
  · exact .pure _

theorem readsOnly_register (table : Table) :
    ReadsOnly txnManager savepoints withAllowed engine (register table) :=
  .modify rfl (.of_sameBeside rfl)

theorem readsOnly_cacheResult (sql : List Char) (res : QueryResult) :
    ReadsOnly txnManager savepoints true engine (cacheResult host sql res) := by
  refine .bind readsOnly_readClock fun now _ _ => ?_
  exact .modify rfl ⟨rfl, fun off => by cases off⟩

theorem readsOnly_attempt {α : Type} {prog : SqlM α}
    (reads : ReadsOnly txnManager savepoints withAllowed engine prog) :
    ReadsOnly txnManager savepoints withAllowed engine (attempt prog) := by
  obtain ⟨commutes, moves⟩ := reads
  unfold Moves finalState at moves
  constructor
  · unfold attempt
    rw [commutes]
    cases prog engine with
    | ok value next => rfl
    | error fault next => cases fault <;> rfl
  · unfold Moves finalState attempt
    cases out : prog engine with
    | ok value next =>
      rw [out] at moves
      exact moves
    | error fault next =>
      rw [out] at moves
      cases fault <;> exact moves

theorem beside_withMut {α : Type} (name : String) (closure : TableM α) :
    Moves SameBeside engine (onCore (withMut name closure)) := by
  unfold Moves finalState onCore withMut
  cases engine.catalog.lookup name with
  | none => rfl
  | some table =>
    simp only
    cases closure table <;> rfl

theorem readsOnly_withMut (name : String) (closure : TableM Unit) :
    ReadsOnly txnManager savepoints withAllowed engine (onCore (withMut name closure)) := by
  constructor
  · have sameCatalog : (engine.withSession txnManager savepoints).catalog = engine.catalog := rfl
    unfold onCore withMut
    rw [sameCatalog]
    cases engine.catalog.lookup name with
    | none => rfl
    | some table =>
      simp only
      cases closure table <;> rfl
  · exact .of_sameBeside (beside_withMut name closure)

theorem readsOnly_systemTimeRows (sql : List Char) :
    ReadsOnly txnManager savepoints withAllowed engine (systemTimeRows host sql) := by
  refine .ofExcept_bind fun parsed _ => ?_
  split
  · exact .pure _
  · refine .get_bind rfl ?_
    split
    · exact .pure _
    · exact .pure _

end

section

variable {host : SqlHost} {withAllowed : Bool} {txnManager : TxnManager}
  {savepoints : List (List Char × Catalog)} {engine : SqlEngine}

/-- What the induction on the depth supplies for the texts within a text. -/
def InnerReadsOnly (txnManager : TxnManager)
    (savepoints : List (List Char × Catalog)) (withAllowed : Bool)
    (host : SqlHost) (inner : List Char → Option Nat → SqlM QueryResult) :
    Prop :=
  ∀ (engine : SqlEngine) (sql : List Char) (txnId : Option Nat),
    IsQuery host engine.views withAllowed sql →
    ReadsOnly txnManager savepoints withAllowed engine (inner sql txnId)

variable {inner : List Char → Option Nat → SqlM QueryResult}

section

/-- The steps by which common table expressions with these names are made keep
`relation` and do not see `change`; `reads` tells the texts that are executed. -/
structure MakesTables (host : SqlHost) (inner : List Char → Option Nat → SqlM QueryResult)
    (change : SqlEngine → SqlEngine) (rel : SqlEngine → SqlEngine → Prop)
    (reads : Finmap (fun _ : String => ViewDef) → List Char → Prop) (named : String → Prop) :
    Prop where
  catalog : ∀ engine, (change engine).catalog = engine.catalog
  views : ∀ {old new : SqlEngine}, rel old new → new.views = old.views
  text : ∀ {engine : SqlEngine} {sql : List Char} (txnId : Option Nat),
    reads engine.views sql → Blind change rel engine (inner sql txnId)
  register : ∀ {engine : SqlEngine} {table : Table}, named table.name →
    Blind change rel engine (register table)
  append : ∀ {engine : SqlEngine} {name : String} (closure : TableM Unit), named name →
    Blind change rel engine (onCore (withMut name closure))

variable {change : SqlEngine → SqlEngine} {rel : SqlEngine → SqlEngine → Prop}
  [IsPreorder SqlEngine rel] {named : String → Prop}
  {reads : Finmap (fun _ : String => ViewDef) → List Char → Prop}

variable (makes : MakesTables host inner change rel reads named)

include makes

theorem MakesTables.recursiveRounds
    {name : String} (isName : named name) {text : List Char} (txnId : Option Nat) (rounds : Nat)
    (isRead : reads engine.views text) :
    Blind change rel engine (recursiveRounds inner name text txnId rounds) := by
  induction rounds generalizing engine with
  | zero => exact .pure _
  | succ rounds ih =>
    have round := makes.text txnId isRead
    refine .bind round fun res next out => ?_
    have sameViews := makes.views (round.moves.reached out)
    refine .get_bind (by simp only [makes.catalog]) ?_
    split
    · split
      · exact .pure _
      · exact .throw _
    · split
      · exact .pure _
      · have append := @MakesTables.append _ _ _ _ _ _ makes next name (appendResultRows res) isName
        refine .bind append fun _ appended appending => ih ?_
        rw [makes.views (append.moves.reached appending), sameViews]
        exact isRead

theorem MakesTables.materializeCte
    (maxRecursion : Nat) (txnId : Option Nat) {cte : CteDef} (isName : named cte.name)
    (areRead : ∀ text ∈ cte.anchor :: cte.recursive.toList, reads engine.views text) :
    Blind change rel engine (materializeCte host inner maxRecursion txnId cte) := by
  have anchor := makes.text txnId (areRead _ mem_cons_self)
  refine .bind anchor fun res next out => ?_
  have registered : Blind change rel next
      (Engine.register (resultToTable host.unicode cte.name res)) := makes.register isName
  refine .bind registered fun _ afterwards registering => ?_
  split
  · exact .pure _
  · next text isRecursive =>
    refine makes.recursiveRounds isName txnId _ ?_
    rw [makes.views (registered.moves.reached registering),
      makes.views (anchor.moves.reached out)]
    exact areRead text (by simp [isRecursive])

theorem MakesTables.executeParts
    {clause : WithClause} (txnId : Option Nat) (areNames : ∀ cte ∈ clause.ctes, named cte.name)
    (areRead : ∀ text ∈ clause.texts, reads engine.views text) :
    Blind change rel engine (executeParts host inner clause txnId) := by
  have materialized : Blind change rel engine
      (clause.ctes.forM (Engine.materializeCte host inner clause.maxRecursion txnId)) := by
    refine .forM fun cte mem cur kept => ?_
    refine makes.materializeCte _ txnId (areNames cte mem) fun text inCte => ?_
    rw [makes.views kept]
    refine areRead text (mem_append_left _ ?_)
    exact mem_flatMap.mpr ⟨cte, mem, inCte⟩
  refine .bind materialized fun _ next out => makes.text txnId ?_
  rw [makes.views (materialized.moves.reached out)]
  exact areRead _ (mem_append_right _ (by simp))

end

variable (inners : InnerReadsOnly txnManager savepoints withAllowed host inner)

include inners

theorem readsOnly_executeWith {clause : WithClause} (txnId : Option Nat)
    (areQueries : ∀ text ∈ clause.texts, IsQuery host engine.views withAllowed text) :
    ReadsOnly txnManager savepoints withAllowed engine (executeWith host inner clause txnId) := by
  have makes : MakesTables host inner (SqlEngine.withSession txnManager savepoints)
      (QueryKeeps withAllowed) (fun views => IsQuery host views withAllowed) (fun _ => True) :=
    { catalog := fun _ => rfl
      views := fun kept => kept.views
      text := fun txnId isQuery => inners _ _ txnId isQuery
      register := fun _ => readsOnly_register _
      append := fun closure _ => readsOnly_withMut _ closure }
  rw [executeWith_eq]
  refine .bind (makes.executeParts txnId (fun _ _ => trivial) areQueries) fun res _ _ => ?_
  refine .bind ?_ (fun _ _ _ => .pure _)
  exact .forM fun _ _ _ _ => .modify rfl (.of_sameBeside rfl)

theorem readsOnly_materializeViewsInSql {sql : List Char}
    (areQueries :
      ∀ view ∈ viewsIn host engine.views sql, IsQuery host engine.views withAllowed view.2) :
    ReadsOnly txnManager savepoints withAllowed engine (materializeViewsInSql host inner sql) := by
  refine .get_bind rfl (.forM ?_)
  intro view mem cur kept
  refine .bind (readsOnly_attempt (inners cur view.2 none ?_)) ?_
  · rw [kept.views]
    exact areQueries view mem
  · intro answered _ _
    split
    · exact readsOnly_register _
    · exact .pure _

theorem readsOnly_executeParsed (depth : Nat) (sql : List Char) (txnId : Option Nat)
    (reads : (host.parse sql).Reads withAllowed)
    (areQueries :
      ∀ text ∈ host.parts engine.views sql, IsQuery host engine.views withAllowed text) :
    ReadsOnly txnManager savepoints withAllowed engine
      (executeParsed host inner depth sql txnId (host.parse sql)) := by
  unfold SqlHost.parts at areQueries
  cases parsed : host.parse sql with
  | malformed error => exact .throw _
  | «with» clause =>
    rw [parsed] at reads areQueries
    cases reads
    refine .bind (readsOnly_executeWith inners txnId areQueries) ?_
    intro res _ _
    exact .bind (readsOnly_cacheResult sql res) (fun _ _ _ => .pure _)
  | setQuery evaluate => exact .get_bind rfl (.ofExcept _)
  | rewrite rewrite =>
    rw [parsed] at areQueries
    have rewritten := inners engine rewrite.text txnId (areQueries _ (mem_singleton.mpr rfl))
    exact .bind rewritten fun _ _ _ => .ofExcept _
  | select =>
    rw [parsed] at areQueries
    refine .bind (readsOnly_materializeViewsInSql inners ?_) ?_
    · intro view mem
      exact areQueries view.2 (mem_map.mpr ⟨view, mem, rfl⟩)
    · intro _ _ _
      exact .get_bind rfl (.ofExcept _)
  | createView _ | dropView _ | createProcedure _ | exec _ _ | merge _
  | ddl _ | dml _ =>
    rw [parsed] at reads
    exact reads.elim

omit inners

/-- A query does not look at the transaction and the savepoints, and changes
nothing but what it registers and caches. -/
theorem readsOnly_executeInner (depth : Nat) :
    InnerReadsOnly txnManager savepoints withAllowed host (executeInner host depth) := by
  -- The induction is on the depth left for texts within texts.
  induction depth with
  | zero => exact fun _ _ _ _ => .throw _
  | succ depth ih =>
    intro engine sql txnId isQuery
    obtain ⟨notSavepoint, reads, areQueries⟩ := isQuery
    have looked : ReadsOnly txnManager savepoints withAllowed engine
        (cachedFor host (host.kind sql == .select) sql) :=
      readsOnly_cachedFor _ sql
    refine .bind looked fun cached next out => ?_
    have sameViews := (looked.moves.reached out).views
    cases cached with
    | some res => exact .pure _
    | none =>
      rw [executeUncached_eq _ _ _ notSavepoint]
      have timed : ReadsOnly txnManager savepoints withAllowed next (systemTimeRows host sql) :=
        readsOnly_systemTimeRows sql
      refine .bind timed fun rows afterwards timing => ?_
      cases rows with
      | some res => exact .pure _
      | none =>
        have keptViews : afterwards.views = engine.views := by
          rw [(timed.moves.reached timing).views, sameViews]
        refine readsOnly_executeParsed ih depth sql txnId reads ?_
        rw [keptViews]
        exact areQueries

end

end TurboGP.Engine
