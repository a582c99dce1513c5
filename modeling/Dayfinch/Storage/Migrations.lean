/-
# Dayfinch.Storage.Migrations -- the schema, however many processes start at once

Every process that starts migrates the database: under one advisory lock it reads which versions are recorded, applies
the others in order, and records each. Processes of older releases know a beginning of the migrations, and may start
before, after or while newer ones do; any of them may fail or be killed at any statement.

`Applied` is that the first `k` migrations have been applied, in order and once each, and nothing else. What the
transaction that holds the lock reads goes through the steps of `Progress`; the others have read nothing yet.
-/
import Dayfinch.Library.Outcome
import Dayfinch.Library.Trace
import Dayfinch.Library.Transaction
import Mathlib.Data.List.Nodup
import Mathlib.Data.List.Range

namespace Dayfinch

namespace Migrations

open Library (Effect Transaction Programs Store StoreOp LockMode Guarded run trace bind_eq_ok)

variable {S ε : Type}

/-! ## The migrations -/

/-- `Migration`. -/
structure Migration (S ε : Type) where
  version : Nat
  name : String
  apply : S → Except ε S

/-- The row that records a migration. -/
def Migration.row (m : Migration S ε) : Nat × String := (m.version, m.name)

/-- What the migrations are called and what they do. -/
structure History (S ε : Type) where
  name : Nat → String
  apply : Nat → S → Except ε S

/-- `MIGRATIONS`, of the newest release: the versions are the numbers from 1 to 61. -/
def History.migrations (history : History S ε) : List (Migration S ε) :=
  (List.range' 1 61).map fun version =>
    { version, name := history.name version, apply := history.apply version }

theorem History.unique (history : History S ε) : (history.migrations.map (·.version)).Nodup := by
  have hversions : history.migrations.map (·.version) = List.range' 1 61 := by
    rw [History.migrations, List.map_map]
    exact List.map_id _
  rw [hversions]
  exact List.nodup_range'

/-- `schema_migrations`, if there is the table, and the rest of the schema. -/
structure Installation (S : Type) where
  versions : Option (List (Nat × String)) := none
  schema : S

/-- How a statement fails. -/
inductive Failure (ε : Type)
  | undefinedTable
  | uniqueViolation
  | migration (e : ε)

/-- A statement; `selectVersions` is followed by what has not been applied. -/
inductive Statement (S ε : Type)
  | lock
  | createTable
  | selectVersions (count : Nat)
  | apply (m : Migration S ε)
  | insert (m : Migration S ε)

/-- What a statement writes. -/
inductive Written (S ε : Type)
  | tableCreated
  | applied (m : Migration S ε)
  | inserted (m : Migration S ε)

/-- The installation after it. -/
def Written.onto (db : Installation S) : Written S ε → Installation S
  | .tableCreated => { db with versions := some (db.versions.getD []) }
  | .applied m =>
    match m.apply db.schema with
    | .ok schema => { db with schema }
    | .error _ => db
  | .inserted m => { db with versions := db.versions.map (· ++ [m.row]) }

/-- `'dayfinch_schema_migrations'`. -/
def lockName : String := "dayfinch_schema_migrations"

/-- The passes of the loop that do not `continue`. -/
def steps (migrations : List (Migration S ε)) : List (Statement S ε) :=
  migrations.flatMap fun m => [.apply m, .insert m]

variable (history : History S ε)

/-- What a statement does. -/
def act (db : Installation S) (_ : Unit) :
    Statement S ε → Except (Failure ε) (Effect String (Statement S ε) (Written S ε))
  | .lock => .ok { locks := [(lockName, .exclusive)] }
  | .createTable => .ok { changes := [.tableCreated] }
  | .selectVersions count =>
    match db.versions with
    | none => .error .undefinedTable
    | some rows => .ok { todo := steps ((history.migrations.take count).filter fun m =>
        !(rows.map (·.1)).contains m.version) }
  | .apply m =>
    match m.apply db.schema with
    | .ok _ => .ok { changes := [.applied m] }
    | .error e => .error (.migration e)
  | .insert m =>
    match db.versions with
    | none => .error .undefinedTable
    | some rows =>
      -- The primary key.
      if (rows.map (·.1)).contains m.version then .error .uniqueViolation
      else .ok { changes := [.inserted m] }

/-- `apply_migrations`, of a release that knows the first `count` migrations. -/
def applyMigrations : Programs (Installation S) Nat String (Statement S ε) (Written S ε) Unit (Failure ε) where
  start _ count := some [.lock, .createTable, .selectVersions count]
  act := act history
  apply := Written.onto

/-- A process has started when its transaction commits. -/
def emit (s : Store (Installation S) Nat String (Statement S ε) (Written S ε)) : StoreOp Nat Unit → List Nat
  | .advance i _ =>
    match s.running[i]? with
    | none => []
    | some t =>
      match t.todo with
      | [] => [t.request]
      | _ => []
  | _ => []

/-! ## What has been applied -/

/-- The first `k` migrations have been applied. -/
structure Applied (initial : S) (k : Nat) (db : Installation S) : Prop where
  le : k ≤ history.migrations.length
  versions : db.versions.getD [] = (history.migrations.take k).map Migration.row
  schema : (history.migrations.take k).foldlM (fun schema m => m.apply schema) initial = .ok db.schema

/-- What the transaction reads, and what it has still to do. -/
inductive Progress (initial : S) (count : Nat) (db : Installation S) : List (Statement S ε) → Prop
  | creating (k : Nat) (h : Applied history initial k db) :
      Progress initial count db [.createTable, .selectVersions count]
  | reading (k : Nat) (h : Applied history initial k db) (htable : db.versions ≠ none) :
      Progress initial count db [.selectVersions count]
  | applying (k : Nat) (h : Applied history initial k db) (htable : db.versions ≠ none) :
      Progress initial count db (steps ((history.migrations.take count).drop k))
  /-- The next migration has been applied and is not recorded. -/
  | recording (k : Nat) (m : Migration S ε) (hm : (history.migrations.take count)[k]? = some m) (schema : S)
      (h : Applied history initial k { db with schema }) (hschema : m.apply schema = .ok db.schema)
      (htable : db.versions ≠ none) :
      Progress initial count db (.insert m :: steps ((history.migrations.take count).drop (k + 1)))

/-- What holds of a transaction. -/
inductive Own (initial : S) (db : Installation S)
    (t : Transaction Nat String (Statement S ε) (Written S ε)) : Prop
  | waiting (htodo : t.todo = [.lock, .createTable, .selectVersions t.request]) (hchanges : t.changes = [])
  | holding (hlock : (lockName, LockMode.exclusive) ∈ t.locks)
      (h : Progress history initial t.request ((applyMigrations history).view db t) t.todo)

variable {history} {initial : S} {db : Installation S} {k : Nat}

/-- A migration further. -/
theorem Applied.succ {m : Migration S ε} {schema : S} {rows : List (Nat × String)}
    (h : Applied history initial k { db with schema }) (hm : history.migrations[k]? = some m)
    (hschema : m.apply schema = .ok db.schema) (hrows : db.versions = some rows) :
    Applied history initial (k + 1) { db with versions := some (rows ++ [m.row]) } := by
  have hk : k < history.migrations.length := (List.getElem?_eq_some_iff.mp hm).1
  have htake : history.migrations.take (k + 1) = history.migrations.take k ++ [m] := by
    rw [List.take_add_one, hm]
    rfl
  refine ⟨hk, ?_, ?_⟩
  · have hversions := h.versions
    rw [hrows] at hversions
    rw [htake, List.map_append, ← hversions]
    rfl
  · rw [htake, List.foldlM_append, h.schema]
    refine bind_eq_ok.mpr ⟨schema, rfl, ?_⟩
    rw [List.foldlM_cons]
    exact bind_eq_ok.mpr ⟨db.schema, hschema, rfl⟩

/-- The migrations that are not recorded are those that come next. -/
theorem filter_unrecorded {count : Nat} :
    ((history.migrations.take count).filter fun m =>
      !(((history.migrations.take k).map Migration.row).map (·.1)).contains m.version) =
        (history.migrations.take count).drop k := by
  have hversions : ((history.migrations.take k).map Migration.row).map (·.1) =
      (history.migrations.take k).map (·.version) := by
    rw [List.map_map]
    rfl
  rw [hversions]
  have hsplit := (List.take_append_drop k (history.migrations.take count)).symm
  conv_lhs => rw [hsplit]
  rw [List.filter_append]
  have hold : ((history.migrations.take count).take k).filter
      (fun m => !((history.migrations.take k).map (·.version)).contains m.version) = [] := by
    refine List.filter_eq_nil_iff.mpr fun m hm hnot => ?_
    rw [List.take_take] at hm
    have hmem : m ∈ history.migrations.take k := List.take_subset_take_left _ (Nat.min_le_left k count) hm
    rw [Bool.not_eq_true', ← Bool.not_eq_true, List.contains_iff_mem] at hnot
    exact hnot (List.mem_map_of_mem hmem)
  have hnew : ((history.migrations.take count).drop k).filter
      (fun m => !((history.migrations.take k).map (·.version)).contains m.version) =
        (history.migrations.take count).drop k := by
    refine List.filter_eq_self.mpr fun m hm => ?_
    rw [Bool.not_eq_true', ← Bool.not_eq_true, List.contains_iff_mem]
    intro hmem
    obtain ⟨o, ho, hsame⟩ := List.mem_map.mp hmem
    have hlater : m ∈ history.migrations.drop k := by
      rw [List.drop_take] at hm
      exact List.mem_of_mem_take hm
    have hunique := history.unique
    rw [← List.take_append_drop k history.migrations, List.map_append, List.nodup_append] at hunique
    exact hunique.2.2 _ (List.mem_map_of_mem ho) _ (List.mem_map_of_mem hlater) hsame
  rw [hold, hnew, List.nil_append]

/-! ## Statements -/

theorem view_after {t : Transaction Nat String (Statement S ε) (Written S ε)}
    {e : Effect String (Statement S ε) (Written S ε)} {rest : List (Statement S ε)} :
    (applyMigrations history).view db (t.after e rest) =
      e.changes.foldl Written.onto ((applyMigrations history).view db t) := List.foldl_append

theorem act_eq_ok {a : Statement S ε} {value : Unit} {e : Effect String (Statement S ε) (Written S ε)}
    (h : (applyMigrations history).act db value a = .ok e) : act history db value a = .ok e := h

theorem steps_cons {m : Migration S ε} {ms : List (Migration S ε)} :
    steps (m :: ms) = .apply m :: .insert m :: steps ms := rfl

/-- The steps that are left when the first of them is known. -/
theorem drop_of_steps {count : Nat} {a : Statement S ε} {rest : List (Statement S ε)}
    (h : steps ((history.migrations.take count).drop k) = a :: rest) :
    ∃ m, (history.migrations.take count)[k]? = some m ∧ a = .apply m ∧
      rest = .insert m :: steps ((history.migrations.take count).drop (k + 1)) := by
  cases hdrop : (history.migrations.take count).drop k with
  | nil =>
    rw [hdrop] at h
    cases h
  | cons m ms =>
    rw [hdrop, steps_cons] at h
    obtain ⟨rfl, rfl⟩ := List.cons_eq_cons.mp h
    have hget : (history.migrations.take count)[k]? = some m := by
      rw [← List.head?_drop, hdrop]
      rfl
    have hrest : (history.migrations.take count).drop (k + 1) = ms := by
      rw [← List.drop_drop, hdrop]
      rfl
    exact ⟨m, hget, rfl, by rw [hrest]⟩

/-- What a statement of the transaction that holds the lock leads to. -/
theorem Progress.act {count : Nat} {a : Statement S ε} {rest : List (Statement S ε)} {value : Unit}
    {e : Effect String (Statement S ε) (Written S ε)} (h : Progress history initial count db (a :: rest))
    (hact : Migrations.act history db value a = .ok e) :
    Progress history initial count (e.changes.foldl Written.onto db) (e.todo ++ rest) := by
  generalize htodo : a :: rest = todo at h
  cases h with
  | creating k happlied =>
    obtain ⟨rfl, rfl⟩ := List.cons_eq_cons.mp htodo
    obtain rfl := Except.ok.inj hact
    exact .reading k { happlied with } (Option.some_ne_none _)
  | reading k happlied htable =>
    obtain ⟨rfl, rfl⟩ := List.cons_eq_cons.mp htodo
    obtain ⟨rows, hrows⟩ := Option.ne_none_iff_exists'.mp htable
    have hversions := happlied.versions
    unfold Migrations.act at hact
    dsimp only at hact
    rw [hrows] at hact hversions
    obtain rfl := Except.ok.inj hact
    have happlying : Progress history initial count db _ := .applying k happlied htable
    rw [List.append_nil]
    show Progress history initial count db (steps _)
    rw [show rows = _ from hversions, filter_unrecorded]
    exact happlying
  | applying k happlied htable =>
    obtain ⟨m, hm, rfl, rfl⟩ := drop_of_steps htodo.symm
    unfold Migrations.act at hact
    dsimp only at hact
    -- The migration comes next in the history, and is run on what those before it have made.
    cases hschema : m.apply db.schema with
    | error e =>
      rw [hschema] at hact
      cases hact
    | ok schema =>
      rw [hschema] at hact
      obtain rfl := Except.ok.inj hact
      have hwritten : Written.onto db (.applied m) = { db with schema } := by
        unfold Written.onto
        dsimp only
        rw [hschema]
      show Progress history initial count (Written.onto db (.applied m)) _
      rw [hwritten]
      exact .recording k m hm db.schema happlied hschema htable
  | recording k m hm schema happlied hschema htable =>
    obtain ⟨rfl, rfl⟩ := List.cons_eq_cons.mp htodo
    obtain ⟨rows, hrows⟩ := Option.ne_none_iff_exists'.mp htable
    unfold Migrations.act at hact
    dsimp only at hact
    rw [hrows] at hact
    dsimp only at hact
    split at hact
    · cases hact
    · obtain rfl := Except.ok.inj hact
      have hget : history.migrations[k]? = some m := by
        rw [List.getElem?_take] at hm
        split at hm
        · exact hm
        · cases hm
      have hnext := happlied.succ hget hschema hrows
      have hwritten : Written.onto db (.inserted m : Written S ε) =
          { db with versions := some (rows ++ [m.row]) } := by
        unfold Written.onto
        dsimp only
        rw [hrows]
        rfl
      show Progress history initial count (Written.onto db (.inserted m)) _
      rw [hwritten]
      exact .applying (k + 1) hnext (Option.some_ne_none _)

/-- **Migrations do not interfere.** -/
theorem applyMigrations_obligations (history : History S ε) (initial : S) :
    (applyMigrations history).Obligations (fun db => ∃ k, Applied history initial k db) (Own history initial)
      fun _ _ => True where
  begins _ hstart := by
    obtain rfl := Option.some.inj hstart
    exact .waiting rfl rfl
  acts := by
    intro db t a rest value e hinv hown _ htodo hact
    cases hown with
    | waiting htodo' hchanges =>
      rw [htodo'] at htodo
      obtain ⟨rfl, rfl⟩ := List.cons_eq_cons.mp htodo
      obtain rfl := Except.ok.inj (act_eq_ok hact)
      -- Whoever gets the lock finds some first migrations applied, by anybody.
      obtain ⟨k, happlied⟩ := hinv
      refine .holding (List.mem_append_right _ List.mem_cons_self) ?_
      rw [view_after]
      have hview : (applyMigrations history).view db t = db := by
        unfold Programs.view
        rw [hchanges]
        rfl
      rw [hview]
      exact .creating k happlied
    | holding hlock hprogress =>
      rw [htodo] at hprogress
      refine .holding (List.mem_append_left _ hlock) ?_
      rw [view_after]
      exact hprogress.act (act_eq_ok hact)
  commits := by
    intro db t _ hown htodo
    cases hown with
    | waiting htodo' _ =>
      rw [htodo] at htodo'
      cases htodo'
    | holding _ hprogress =>
      rw [htodo] at hprogress
      generalize hnil : ([] : List (Statement S ε)) = todo at hprogress
      cases hprogress with
      | creating | reading | recording => cases hnil
      -- The loop is through, so nothing is half done.
      | applying k happlied _ => exact ⟨k, happlied⟩
  keeps := by
    intro db t o _ hown htodo hother hapart
    cases hother with
    | waiting htodo' hchanges => exact .waiting htodo' hchanges
    | holding hlock _ =>
      -- Only the holder of the lock commits, and nobody else holds it.
      cases hown with
      | waiting htodo' _ =>
        rw [htodo] at htodo'
        cases htodo'
      | holding hlock' _ => exact (hapart.exclusive hlock' hlock).elim

/-! ## Every start -/

/-- The number of migrations that are recorded. -/
def recorded (db : Installation S) : Nat := (db.versions.getD []).length

theorem Applied.recorded_eq (h : Applied history initial k db) : recorded db = k := by
  unfold recorded
  rw [h.versions, List.length_map, List.length_take, Nat.min_eq_left h.le]

/-- Nothing that is recorded is ever removed. -/
theorem recorded_le_view (t : Transaction Nat String (Statement S ε) (Written S ε)) :
    recorded db ≤ recorded ((applyMigrations history).view db t) := by
  unfold Programs.view
  generalize t.changes = changes
  induction changes generalizing db with
  | nil => exact Nat.le_refl _
  | cons change changes ih =>
    have hrest : recorded (Written.onto db change) ≤ _ := ih
    refine Nat.le_trans ?_ hrest
    cases change with
    | tableCreated => exact Nat.le_refl _
    | applied m =>
      unfold Written.onto
      dsimp only
      split <;> exact Nat.le_refl _
    | inserted m =>
      unfold Written.onto recorded
      cases db.versions with
      | none => exact Nat.le_refl _
      | some rows =>
        show rows.length ≤ (rows ++ [m.row]).length
        rw [List.length_append]
        exact Nat.le_add_right _ _

/-- Who has started finds its migrations. -/
theorem recorded_of_commit {t : Transaction Nat String (Statement S ε) (Written S ε)}
    (h : Own history initial db t) (htodo : t.todo = []) :
    min t.request history.migrations.length ≤ recorded ((applyMigrations history).view db t) := by
  cases h with
  | waiting htodo' _ =>
    rw [htodo] at htodo'
    cases htodo'
  | holding _ hprogress =>
    rw [htodo] at hprogress
    generalize hnil : ([] : List (Statement S ε)) = todo at hprogress
    cases hprogress with
    | creating | reading | recording => cases hnil
    | applying k happlied _ =>
      have hdrop : (history.migrations.take t.request).drop k = [] := by
        cases hrest : (history.migrations.take t.request).drop k with
        | nil => rfl
        | cons m ms =>
          rw [hrest, steps_cons] at hnil
          cases hnil
      rw [happlied.recorded_eq]
      rw [List.drop_eq_nil_iff, List.length_take] at hdrop
      exact hdrop

/-- What holds between steps: the committed rows are the first migrations, and who has started finds its own. -/
def Upgraded (history : History S ε) (initial : S)
    (s : Store (Installation S) Nat String (Statement S ε) (Written S ε)) (events : List Nat) : Prop :=
  Programs.Undisturbed (fun db => ∃ k, Applied history initial k db) (Own history initial) s ∧
    ∀ count ∈ events, min count history.migrations.length ≤ recorded s.db

theorem upgraded_step {history : History S ε} {initial : S}
    (s : Store (Installation S) Nat String (Statement S ε) (Written S ε)) (events : List Nat) (op : StoreOp Nat Unit)
    (h : Upgraded history initial s events) :
    Upgraded history initial ((applyMigrations history).step s op) (events ++ emit s op) := by
  obtain ⟨hundisturbed, hstarted⟩ := h
  have hguard : (applyMigrations history).guards (fun _ _ => True) s op := by
    cases op with
    | begin request => trivial
    | advance i value => exact fun _ _ => trivial
    | rollback i => trivial
  refine ⟨hundisturbed.step (applyMigrations_obligations history initial) hguard, fun count hcount => ?_⟩
  cases op with
  | begin request => exact hstarted count (List.append_nil events ▸ hcount)
  | rollback i => exact hstarted count (List.append_nil events ▸ hcount)
  | advance i value =>
    show _ ≤ recorded (Programs.advance _ s i value).db
    unfold Programs.advance
    unfold emit at hcount
    dsimp only at hcount
    cases ht : s.running[i]? with
    | none =>
      rw [ht] at hcount
      exact hstarted count (List.append_nil events ▸ hcount)
    | some t =>
      rw [ht] at hcount
      dsimp only at hcount ⊢
      have hown := hundisturbed.own t (List.mem_of_getElem? ht)
      cases htodo : t.todo with
      | nil =>
        rw [htodo] at hcount
        rcases List.mem_append.mp hcount with hbefore | hnow
        · exact Nat.le_trans (hstarted count hbefore) (recorded_le_view t)
        · rw [List.mem_singleton.mp hnow]
          exact recorded_of_commit hown htodo
      | cons a rest =>
        rw [htodo] at hcount
        have hbefore := hstarted count (List.append_nil events ▸ hcount)
        dsimp only
        split
        · exact hbefore
        · split <;> exact hbefore

/-- What holds after a run, of a database that was empty. -/
def MigrationsHold (history : History S ε) (initial : S) (ops : List (StoreOp Nat Unit)) : Prop :=
  ∃ k, Applied history initial k (run (applyMigrations history).step { db := { schema := initial } } ops).db ∧
    ∀ count ∈ trace (applyMigrations history).step emit { db := { schema := initial } } ops,
      min count history.migrations.length ≤ k

/-- **Migrations.** However many processes start, of whatever releases, and wherever they fail or are killed: the schema
is what the first migrations make of the empty one, each applied once and in order, these are the ones recorded, and
every process that has started finds all that its release knows. -/
theorem migrations_hold (history : History S ε) (initial : S) (ops : List (StoreOp Nat Unit)) :
    MigrationsHold history initial ops := by
  have hinvariant : Upgraded history initial (run (applyMigrations history).step { db := { schema := initial } } ops)
      (trace (applyMigrations history).step emit { db := { schema := initial } } ops) :=
    Library.trace_invariant (Upgraded history initial) upgraded_step
      ⟨⟨⟨0, Nat.zero_le _, rfl, rfl⟩, fun _ h => absurd h List.not_mem_nil, .nil⟩, nofun⟩ ops
  obtain ⟨⟨⟨k, happlied⟩, _, _⟩, hstarted⟩ := hinvariant
  refine ⟨k, happlied, fun count hcount => ?_⟩
  rw [← happlied.recorded_eq]
  exact hstarted count hcount

/-- Migrations that write down their versions. -/
def writtenDown : History (List Nat) Unit where
  name version := toString version
  apply version schema := .ok (schema ++ [version])

/-- A process that knows two migrations is killed after the first of them. Another one and a process that knows
three start then; the second waits for the lock. -/
def threeStarts : List (StoreOp Nat Unit) :=
  .begin 2 :: List.replicate 5 (.advance 0 ()) ++
    [.rollback 0, .begin 2, .begin 3, .advance 0 (), .advance 1 ()] ++ List.replicate 13 (.advance 0 ())

theorem migrations_hold_threeStarts :
    MigrationsHold writtenDown [] threeStarts ∧
      (run (applyMigrations writtenDown).step { db := { schema := [] } } threeStarts).db.schema = [1, 2, 3] ∧
      trace (applyMigrations writtenDown).step emit { db := { schema := [] } } threeStarts = [2, 3] :=
  ⟨migrations_hold writtenDown [] threeStarts, by decide +kernel, by decide +kernel⟩

end Migrations

end Dayfinch
