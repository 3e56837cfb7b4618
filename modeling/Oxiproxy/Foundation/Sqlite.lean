import Oxiproxy.Foundation.HashMap

/-!
# SQLite

Tables with the constraints that are checked when a row is inserted, the statements
that make, fill, rename and drop them, and transactions.  Foreign keys are enforced,
and the sequence of a table starts with the first statement that inserts into it, even
if that inserts no row.
-/

namespace Sqlite

inductive Value
  | null
  | int (n : ℤ)
  | text (s : String)
  deriving DecidableEq, Repr

abbrev Row := List Value

/-- The type that the values of a column are stored with. -/
inductive Affinity
  | integer
  | numeric
  | text
  deriving DecidableEq, Repr

def digits (cs : List Char) : Option ℤ :=
  if cs ≠ [] ∧ cs.all Char.isDigit = true then some (Nat.ofDigitChars 10 cs 0) else none

/-- The number that a text is, if it is an integer literal. -/
def integerLiteral (s : String) : Option ℤ :=
  match s.toList with
  | '-' :: cs => (digits cs).map (-·)
  | '+' :: cs => digits cs
  | cs => digits cs

def Affinity.apply : Affinity → Value → Value
  | .text, .int n => .text (toString n)
  | .text, v => v
  | _, .text s =>
      match integerLiteral s with
      | some n => .int n
      | none => .text s
  | _, v => v

structure Column where
  name : String
  affinity : Affinity
  notNull : Bool
  default : Value
  /-- The table whose ids the column refers to; its rows go with the rows that they refer to. -/
  parent : Option String
  deriving DecidableEq, Repr

structure Definition where
  columns : List Column
  /-- Whether the first column is an automatic id. -/
  autoincrement : Bool
  check : (String → Value) → Bool

def Definition.names (d : Definition) : List String := d.columns.map (·.name)

/-- The value of a row in a column. -/
def Definition.value (d : Definition) (row : Row) (name : String) : Value :=
  ((d.names.zip row).lookup name).getD .null

structure Table extends Definition where
  rows : List Row

inductive Event
  | insert
  | update (columns : List String)
  deriving DecidableEq, Repr

/-- What an index or a trigger is about.  A trigger raises an error for a new row,
which it compares with the rows of its table. -/
inductive Kind
  | index (unique : Bool) (columns : List String)
  | trigger (event : Event) (raises : (Row → String → Value) → List Row → Row → Bool)

structure SchemaObject where
  name : String
  table : String
  kind : Kind
  /-- Whether the object has a statement of its own, unlike the index of a constraint. -/
  hasSql : Bool

structure Database where
  tables : AList fun _ : String ↦ Table
  /-- `sqlite_sequence` -/
  sequences : AList fun _ : String ↦ ℤ
  objects : List SchemaObject

/-! ## Rows -/

def key (row : Row) : Value := row.headD .null

/-- The largest id, or zero. -/
def maxId (rows : List Row) : ℤ :=
  rows.foldl (fun m row ↦ match key row with | .int n => max m n | _ => m) 0

def Database.sequence (db : Database) (name : String) : ℤ := (db.sequences.lookup name).getD 0

def Database.rows (db : Database) (name : String) : List Row :=
  ((db.tables.lookup name).map (·.rows)).getD []

/-- The id of the next row without one. -/
def Database.nextId (db : Database) (name : String) : ℤ :=
  max (db.sequence name) (maxId (db.rows name)) + 1

/-- The columns of a unique index may not have the same values in two rows, unless one is null. -/
def Definition.clash (d : Definition) (columns : List String) (row row' : Row) : Bool :=
  columns.all fun name ↦ d.value row name ≠ .null ∧ d.value row name = d.value row' name

def Database.uniqueIndexes (db : Database) (name : String) : List (List String) :=
  db.objects.filterMap fun o ↦
    match o.kind with
    | .index true columns => if o.table = name then some columns else none
    | _ => none

def Database.raises (db : Database) (name : String) (t : Table) (row : Row) : Bool :=
  db.objects.any fun o ↦
    match o.kind with
    | .trigger .insert raises => o.table = name && raises t.value t.rows row
    | _ => false

def Database.hasParents (db : Database) (d : Definition) (row : Row) : Bool :=
  (d.columns.zip row).all fun (c, v) ↦
    match c.parent with
    | none => true
    | some parent => v = .null || (db.rows parent).any fun r ↦ key r = Affinity.integer.apply v

def Database.insertRow (name : String) (db : Database) (row : Row) : Except String Database :=
  match db.tables.lookup name with
  | none => .error ("no such table: " ++ name)
  | some t =>
      let row := if t.autoincrement = true ∧ row.head? = some .null
        then .int (db.nextId name) :: row.tail else row
      let row := List.zipWith (fun c v ↦ c.affinity.apply v) t.columns row
      if db.raises name t row then .error "trigger"
      else if (t.columns.zip row).any fun (c, v) ↦ c.notNull && v = .null then
        .error "NOT NULL constraint failed"
      else if !t.check (t.value row) then .error "CHECK constraint failed"
      else if (t.autoincrement && t.rows.any fun row' ↦ key row' = key row) ||
          (db.uniqueIndexes name).any fun columns ↦ t.rows.any (t.clash columns row) then
        .error "UNIQUE constraint failed"
      else if !db.hasParents t.toDefinition row then .error "FOREIGN KEY constraint failed"
      else
        let db := { db with tables := db.tables.insert name { t with rows := t.rows ++ [row] } }
        if !t.autoincrement then .ok db
        else
          match key row with
          | .int n => .ok { db with sequences := db.sequences.insert name (max (db.sequence name) n) }
          | _ => .error "datatype mismatch"

/-! ## Statements -/

/-- The names of columns, or all of them in their order. -/
inductive Names
  | all
  | only (names : List String)
  deriving DecidableEq, Repr

def Names.of (d : Definition) : Names → List String
  | .all => d.names
  | .only names => names

/-- A row whose other columns have their defaults. -/
def Definition.fill (d : Definition) (names : List String) (values : Row) : Row :=
  d.columns.map fun c ↦ ((names.zip values).lookup c.name).getD c.default

inductive Statement
  | select
  | createTable (name : String) (definition : Definition)
  | createTempAs (name source : String)
  | insertSelect (name : String) (columns : Names) (source : String) (selected : Names)
  | dropTable (name : String)
  | renameTable (name name' : String)
  | createObject (o : SchemaObject)
  | raiseSequence (name : String) (value : ℤ)

/-- The names and the types of the columns, without their constraints. -/
def Definition.plain (d : Definition) : Definition where
  columns := d.columns.map fun c ↦ ⟨c.name, c.affinity, false, .null, none⟩
  autoincrement := false
  check _ := true

def Definition.refers (d : Definition) (parent : String) (gone : List Value) (row : Row) : Bool :=
  (d.columns.zip row).any fun (c, v) ↦
    c.parent = some parent && Affinity.integer.apply v ∈ gone

/-- Delete the rows that refer to deleted rows, and those that refer to them. -/
def Database.cascade : ℕ → String → List Value → Database → Except String Database
  | 0, _, _, _ => .error "too many levels of trigger recursion"
  | depth + 1, parent, gone, db =>
      db.tables.keys.foldlM (fun db child ↦
        match db.tables.lookup child with
        | none => .ok db
        | some t =>
            let hit := t.rows.filter (t.refers parent gone)
            if hit.isEmpty then .ok db
            else
              let rest := t.rows.filter fun row ↦ !t.refers parent gone row
              cascade depth child (hit.map key)
                { db with tables := db.tables.insert child { t with rows := rest } }) db

def Database.dropTable (name : String) (db : Database) : Except String Database :=
  match db.tables.lookup name with
  | none => .error ("no such table: " ++ name)
  | some t => do
      let db ← db.cascade 1000 name (t.rows.map key)
      return {
        tables := db.tables.erase name
        sequences := db.sequences.erase name
        objects := db.objects.filter fun o ↦ o.table ≠ name }

def Table.renameParent (name name' : String) (t : Table) : Table :=
  { t with columns := t.columns.map fun c ↦
      if c.parent = some name then { c with parent := some name' } else c }

def Database.renameTable (name name' : String) (db : Database) : Except String Database :=
  match db.tables.lookup name, db.tables.lookup name' with
  | none, _ => .error ("no such table: " ++ name)
  | some _, some _ => .error ("there is already another table or index with this name: " ++ name')
  | some t, none => .ok {
      tables := ((db.tables.erase name).insert name' t).filterMapVal
        fun _ t ↦ some (t.renameParent name name')
      sequences := match db.sequences.lookup name with
        | some n => (db.sequences.erase name).insert name' n
        | none => db.sequences
      objects := db.objects.map fun o ↦ if o.table = name then { o with table := name' } else o }

/-- No two rows clash. -/
def Table.isUnique (t : Table) (columns : List String) : Bool :=
  t.rows.Pairwise fun row row' ↦ t.clash columns row row' = false

def Database.createObject (o : SchemaObject) (db : Database) : Except String Database :=
  match db.tables.lookup o.table with
  | none => .error ("no such table: " ++ o.table)
  | some t =>
      if db.objects.any fun o' ↦ o'.name = o.name then .error (o.name ++ " already exists")
      else
        match o.kind with
        | .index true columns =>
            if t.isUnique columns then .ok { db with objects := db.objects ++ [o] }
            else .error "UNIQUE constraint failed"
        | _ => .ok { db with objects := db.objects ++ [o] }

/-- A table with an automatic id has a sequence once a statement has inserted into it. -/
def Database.startSequence (name : String) (d : Definition) (db : Database) : Database :=
  if d.autoincrement then
    { db with sequences := db.sequences.insert name (db.sequence name) }
  else db

def Statement.exec (db : Database) : Statement → Except String Database
  | .select => .ok db
  | .createTable name definition =>
      if name ∈ db.tables then .error ("table " ++ name ++ " already exists")
      else .ok { db with tables := db.tables.insert name ⟨definition, []⟩ }
  | .createTempAs name source =>
      if name ∈ db.tables then .error ("table " ++ name ++ " already exists")
      else
        match db.tables.lookup source with
        | none => .error ("no such table: " ++ source)
        | some t => .ok { db with tables := db.tables.insert name ⟨t.plain, t.rows⟩ }
  | .insertSelect name columns source selected =>
      match db.tables.lookup name, db.tables.lookup source with
      | some t, some s =>
          if (columns.of t.toDefinition).length = (selected.of s.toDefinition).length then
            (s.rows.map fun row ↦
              t.fill (columns.of t.toDefinition)
                ((selected.of s.toDefinition).map (s.value row))).foldlM (·.insertRow name)
              (db.startSequence name t.toDefinition)
          else .error "the numbers of columns and values differ"
      | _, _ => .error "no such table"
  | .dropTable name => db.dropTable name
  | .renameTable name name' => db.renameTable name name'
  | .createObject o => db.createObject o
  | .raiseSequence name value =>
      match db.sequences.lookup name with
      | none => .ok db
      | some n => .ok { db with sequences := db.sequences.insert name (max n value) }

/-! ## Transactions -/

/-- Statements one after the other.  The call with the number `n` fails for a reason of its
own if `fault n` has one. -/
def run (fault : ℕ → Option String) : ℕ → List Statement → Database → Except String Database
  | _, [], db => .ok db
  | n, statement :: statements, db =>
      match fault n with
      | some e => .error e
      | none => statement.exec db >>= run fault (n + 1) statements

/-- `begin`, the statements and `commit`. -/
def attempt (fault : ℕ → Option String) (n : ℕ) (statements : List Statement) (db : Database) :
    Except String Database :=
  match fault n with
  | some e => .error e
  | none => do
      let db ← run fault (n + 1) statements db
      match fault (n + 1 + statements.length) with
      | some e => .error e
      | none => .ok db

/-- After an error everything is as before. -/
def transaction (fault : ℕ → Option String) (n : ℕ) (statements : List Statement)
    (db : Database) : Except String Unit × Database :=
  match attempt fault n statements db with
  | .ok db => (.ok (), db)
  | .error e => (.error e, db)

theorem transaction_error {fault : ℕ → Option String} {n : ℕ} {statements : List Statement}
    {db : Database} {e : String} (h : (transaction fault n statements db).1 = .error e) :
    (transaction fault n statements db).2 = db := by
  unfold transaction at h ⊢
  cases hattempt : attempt fault n statements db with
  | ok db' =>
      rw [hattempt] at h
      cases h
  | error e' => rfl

/-- A statement that fails makes the run fail. -/
theorem run_fault {fault : ℕ → Option String} {n k : ℕ} {statements : List Statement}
    {db : Database} (hfault : fault k ≠ none) (hn : n ≤ k) (hk : k < n + statements.length) :
    ∃ e, run fault n statements db = .error e := by
  induction statements generalizing n db with
  | nil =>
      rw [List.length_nil] at hk
      omega
  | cons statement statements ih =>
      unfold run
      cases hcall : fault n with
      | some e => exact ⟨e, rfl⟩
      | none =>
          have hne : n ≠ k := fun h ↦ hfault (h ▸ hcall)
          rw [List.length_cons] at hk
          cases hexec : statement.exec db with
          | error e => exact ⟨e, rfl⟩
          | ok db' => exact ih (n := n + 1) (by omega) (by omega)

/-- Any call of a transaction that fails makes it fail. -/
theorem transaction_fault {fault : ℕ → Option String} {n k : ℕ} {statements : List Statement}
    {db : Database} (hfault : fault k ≠ none) (hn : n ≤ k) (hk : k ≤ n + 1 + statements.length) :
    ∃ e, (transaction fault n statements db).1 = .error e := by
  have hattempt : ∃ e, attempt fault n statements db = .error e := by
    unfold attempt
    cases hbegin : fault n with
    | some e => exact ⟨e, rfl⟩
    | none =>
        have hne : n ≠ k := fun h ↦ hfault (h ▸ hbegin)
        cases hcommit : fault (n + 1 + statements.length) with
        | some e =>
            cases run fault (n + 1) statements db with
            | error e' => exact ⟨e', rfl⟩
            | ok db' => exact ⟨e, rfl⟩
        | none =>
            have hlast : n + 1 + statements.length ≠ k := fun h ↦ hfault (h ▸ hcommit)
            obtain ⟨e, he⟩ := @run_fault fault (n + 1) k statements db hfault (by omega) (by omega)
            exact ⟨e, by rw [he]; rfl⟩
  obtain ⟨e, he⟩ := hattempt
  exact ⟨e, by rw [transaction, he]⟩

/-! ## Databases as functions -/

/-- What a database answers, whatever the order that its tables are kept in. -/
@[ext]
structure View where
  tables : String → Option Table
  sequences : String → Option ℤ
  objects : List SchemaObject

def Database.view (db : Database) : View where
  tables name := db.tables.lookup name
  sequences name := db.sequences.lookup name
  objects := db.objects

def View.rows (v : View) (name : String) : List Row := ((v.tables name).map (·.rows)).getD []

def View.nextId (v : View) (name : String) : ℤ :=
  max ((v.sequences name).getD 0) (maxId (v.rows name)) + 1

/-- No column refers to the table. -/
def View.Unreferenced (v : View) (name : String) : Prop :=
  ∀ child t, v.tables child = some t → ∀ c ∈ t.columns, c.parent ≠ some name

/-- The statement succeeds where it sees `v`, and leaves what is seen as `v'`. -/
def Statement.Does (statement : Statement) (v v' : View) : Prop :=
  ∀ db : Database, db.view = v → ∃ db', statement.exec db = .ok db' ∧ db'.view = v'

def Does : List Statement → View → View → Prop
  | [], v, v' => v = v'
  | statement :: statements, v, v' => ∃ u, statement.Does v u ∧ Does statements u v'

theorem Does.append {statements statements' : List Statement} {v u w : View}
    (h : Does statements v u) (h' : Does statements' u w) : Does (statements ++ statements') v w := by
  induction statements generalizing v with
  | nil =>
      obtain rfl : v = u := h
      exact h'
  | cons statement statements ih =>
      obtain ⟨x, hstep, hrest⟩ := h
      exact ⟨x, hstep, ih hrest⟩

theorem Does.run {statements : List Statement} {v v' : View} (h : Does statements v v') (n : ℕ)
    (db : Database) (hview : db.view = v) :
    ∃ db', run (fun _ ↦ none) n statements db = .ok db' ∧ db'.view = v' := by
  induction statements generalizing v db n with
  | nil =>
      obtain rfl : v = v' := h
      exact ⟨db, rfl, hview⟩
  | cons statement statements ih =>
      obtain ⟨u, hstep, hrest⟩ := h
      obtain ⟨db₁, hexec, hview₁⟩ := hstep db hview
      obtain ⟨db₂, hrun, hview₂⟩ := ih hrest (n + 1) db₁ hview₁
      refine ⟨db₂, ?_, hview₂⟩
      rw [Sqlite.run, hexec]
      exact hrun

theorem Does.transaction {statements : List Statement} {v v' : View} (h : Does statements v v')
    (n : ℕ) (db : Database) (hview : db.view = v) :
    ∃ db', transaction (fun _ ↦ none) n statements db = (.ok (), db') ∧ db'.view = v' := by
  obtain ⟨db', hrun, hview'⟩ := h.run (n + 1) db hview
  refine ⟨db', ?_, hview'⟩
  have hattempt : attempt (fun _ ↦ none) n statements db = .ok db' := by
    rw [attempt, hrun]
    rfl
  rw [Sqlite.transaction, hattempt]

/-! ## What statements do -/

section Statements

variable {v : View} {name name' source : String} {t s : Table} {d : Definition}

theorem lookup_insert_eq_update {β : Type*} (m : AList fun _ : String ↦ β) (k : String) (b : β) :
    (fun a ↦ (m.insert k b).lookup a) = Function.update (fun a ↦ m.lookup a) k (some b) := by
  funext a
  rw [Function.update_apply, AList.lookup_insert_eq_ite]

theorem lookup_erase_eq_update {β : Type*} (m : AList fun _ : String ↦ β) (k : String) :
    (fun a ↦ (m.erase k).lookup a) = Function.update (fun a ↦ m.lookup a) k none := by
  funext a
  rw [Function.update_apply, AList.lookup_erase_eq_ite]

theorem view_insert (db : Database) (name : String) (t : Table) :
    { db with tables := db.tables.insert name t }.view =
      { db.view with tables := Function.update db.view.tables name (some t) } :=
  View.ext (lookup_insert_eq_update db.tables name t) rfl rfl

theorem notMem_tables {db : Database} (h : db.view.tables name = none) : name ∉ db.tables :=
  AList.lookup_eq_none.mp h

theorem does_select (v : View) : Statement.select.Does v v := fun db h ↦ ⟨db, rfl, h⟩

theorem does_createTable (h : v.tables name = none) :
    (Statement.createTable name d).Does v
      { v with tables := Function.update v.tables name (some ⟨d, []⟩) } := by
  rintro db rfl
  exact ⟨_, if_neg (notMem_tables h), view_insert db name _⟩

theorem does_createTempAs (h : v.tables name = none) (hs : v.tables source = some s) :
    (Statement.createTempAs name source).Does v
      { v with tables := Function.update v.tables name (some ⟨s.plain, s.rows⟩) } := by
  rintro db rfl
  have hlookup : db.tables.lookup source = some s := hs
  refine ⟨_, ?_, view_insert db name _⟩
  simp only [Statement.exec, if_neg (notMem_tables h), hlookup]

/-- Nothing refers to the rows of a table that no column refers to. -/
theorem refers_eq_false {gone : List Value} (h : ∀ c ∈ d.columns, c.parent ≠ some name)
    (row : Row) : d.refers name gone row = false := by
  unfold Definition.refers
  rw [List.any_eq_false]
  rintro ⟨c, value⟩ hmem
  rw [Bool.and_eq_true, not_and, decide_eq_true_eq]
  exact fun hparent ↦ (h c (List.of_mem_zip hmem).1 hparent).elim

theorem cascade_of_unreferenced {db : Database} (h : db.view.Unreferenced name) (depth : ℕ)
    (gone : List Value) : db.cascade (depth + 1) name gone = .ok db := by
  unfold Database.cascade
  induction db.tables.keys with
  | nil => rfl
  | cons child keys ih =>
      rw [List.foldlM_cons]
      cases hlookup : db.tables.lookup child with
      | none => exact ih
      | some t =>
          have hfilter : t.rows.filter (t.refers name gone) = [] := by
            rw [List.filter_eq_nil_iff]
            intro row _
            rw [refers_eq_false (h child t hlookup)]
            exact Bool.false_ne_true
          simp only [hfilter]
          exact ih

theorem does_dropTable (h : v.tables name = some t) (hfree : v.Unreferenced name) :
    (Statement.dropTable name).Does v {
      tables := Function.update v.tables name none
      sequences := Function.update v.sequences name none
      objects := v.objects.filter fun o ↦ o.table ≠ name } := by
  rintro db rfl
  have hlookup : db.tables.lookup name = some t := h
  have hexec : (Statement.dropTable name).exec db = .ok {
      tables := db.tables.erase name
      sequences := db.sequences.erase name
      objects := db.objects.filter fun o ↦ o.table ≠ name } := by
    simp only [Statement.exec, Database.dropTable, hlookup, cascade_of_unreferenced hfree]
    rfl
  exact ⟨_, hexec, View.ext (lookup_erase_eq_update db.tables name)
    (lookup_erase_eq_update db.sequences name) rfl⟩

theorem renameParent_eq_self (h : ∀ c ∈ t.columns, c.parent ≠ some name) :
    t.renameParent name name' = t := by
  have hcolumns : t.columns.map (fun c ↦
      if c.parent = some name then { c with parent := some name' } else c) = t.columns := by
    conv_rhs => rw [← List.map_id t.columns]
    exact List.map_congr_left fun c hc ↦ if_neg (h c hc)
  unfold Table.renameParent
  rw [hcolumns]

theorem does_renameTable (h : v.tables name = some t) (hfresh : v.tables name' = none)
    (hsequence : v.sequences name' = none) (hfree : v.Unreferenced name)
    (hobjects : ∀ o ∈ v.objects, o.table ≠ name) :
    (Statement.renameTable name name').Does v {
      tables := Function.update (Function.update v.tables name none) name' (some t)
      sequences := Function.update (Function.update v.sequences name none) name' (v.sequences name)
      objects := v.objects } := by
  rintro db rfl
  have hlookup : db.tables.lookup name = some t := h
  have hlookup' : db.tables.lookup name' = none := hfresh
  have hself : ∀ a t', ((db.tables.erase name).insert name' t).lookup a = some t' →
      t'.renameParent name name' = t' := by
    intro a t' ht'
    rw [AList.lookup_insert_eq_ite, AList.lookup_erase_eq_ite] at ht'
    split_ifs at ht' with hnew hold
    · cases ht'
      exact renameParent_eq_self (hfree name t h)
    · exact renameParent_eq_self (hfree a t' ht')
  have hobjects' : (db.objects.map fun o ↦
      if o.table = name then { o with table := name' } else o) = db.objects := by
    conv_rhs => rw [← List.map_id db.objects]
    exact List.map_congr_left fun o ho ↦ if_neg (hobjects o ho)
  have hexec : (Statement.renameTable name name').exec db = .ok {
      tables := ((db.tables.erase name).insert name' t).filterMapVal
        fun _ t ↦ some (t.renameParent name name')
      sequences := match db.sequences.lookup name with
        | some n => (db.sequences.erase name).insert name' n
        | none => db.sequences
      objects := db.objects } := by
    simp only [Statement.exec, Database.renameTable, hlookup, hlookup', hobjects']
  refine ⟨_, hexec, View.ext ?_ ?_ rfl⟩
  · have hrename : (fun a ↦ (((db.tables.erase name).insert name' t).filterMapVal
        fun _ t ↦ some (t.renameParent name name')).lookup a) =
        fun a ↦ ((db.tables.erase name).insert name' t).lookup a := by
      funext a
      rw [AList.lookup_filterMapVal]
      cases hentry : ((db.tables.erase name).insert name' t).lookup a with
      | none => rfl
      | some t' => rw [Option.bind_some, hself a t' hentry]
    refine hrename.trans ?_
    rw [lookup_insert_eq_update, lookup_erase_eq_update]
    rfl
  · cases hseq : db.sequences.lookup name with
    | none =>
        have hnone : db.view.sequences name = none := hseq
        have hsame : Function.update db.view.sequences name none = db.view.sequences := by
          rw [← hnone, Function.update_eq_self]
        have hsame' : Function.update db.view.sequences name' none = db.view.sequences := by
          rw [← hsequence, Function.update_eq_self]
        rw [hnone, hsame, hsame']
        rfl
    | some n =>
        have hsome : db.view.sequences name = some n := hseq
        rw [hsome]
        refine (lookup_insert_eq_update (db.sequences.erase name) name' n).trans ?_
        rw [lookup_erase_eq_update]
        rfl

theorem does_createObject {o : SchemaObject} (h : v.tables o.table = some t)
    (hname : ∀ o' ∈ v.objects, o'.name ≠ o.name)
    (hunique : ∀ columns, o.kind = .index true columns → t.isUnique columns = true) :
    (Statement.createObject o).Does v { v with objects := v.objects ++ [o] } := by
  rintro db rfl
  have hlookup : db.tables.lookup o.table = some t := h
  have hany : db.objects.any (fun o' ↦ o'.name = o.name) = false := by
    rw [List.any_eq_false]
    exact fun o' ho' ↦ by simpa using hname o' ho'
  refine ⟨{ db with objects := db.objects ++ [o] }, ?_, rfl⟩
  simp only [Statement.exec, Database.createObject, hlookup, hany, Bool.false_eq_true, if_false]
  split
  · next columns hkind => rw [if_pos (hunique columns hkind)]
  · rfl

theorem does_raiseSequence (value : ℤ) :
    (Statement.raiseSequence name value).Does v
      { v with sequences :=
          Function.update v.sequences name ((v.sequences name).map fun n ↦ max n value) } := by
  rintro db rfl
  cases hlookup : db.sequences.lookup name with
  | none =>
      have hview : db.view.sequences name = none := hlookup
      refine ⟨db, ?_, View.ext rfl ?_ rfl⟩
      · simp only [Statement.exec, hlookup]
      · rw [hview, Option.map_none, ← hview, Function.update_eq_self]
  | some n =>
      have hview : db.view.sequences name = some n := hlookup
      have hexec : (Statement.raiseSequence name value).exec db =
          .ok { db with sequences := db.sequences.insert name (max n value) } := by
        simp only [Statement.exec, hlookup]
      refine ⟨_, hexec, View.ext rfl ?_ rfl⟩
      rw [hview]
      exact lookup_insert_eq_update db.sequences name _

/-- A change of one table keeps what holds of all tables. -/
theorem View.Unreferenced.update {tables : String → Option Table} {o : Option Table}
    (h : ∀ child t, tables child = some t → ∀ c ∈ t.columns, c.parent ≠ some name')
    (ho : ∀ t, o = some t → ∀ c ∈ t.columns, c.parent ≠ some name') (child : String) (t : Table)
    (ht : Function.update tables name o child = some t) :
    ∀ c ∈ t.columns, c.parent ≠ some name' := by
  rw [Function.update_apply] at ht
  split_ifs at ht
  · exact ho t ht
  · exact h child t ht

/-- A value that is stored in a column as it is. -/
structure View.AcceptsValue (v : View) (c : Column) (value : Value) : Prop where
  stored : c.affinity.apply value = value
  notNull : c.notNull = true → value ≠ .null
  parent : ∀ parent, c.parent = some parent →
    value = .null ∨ ∃ r ∈ v.rows parent, key r = Affinity.integer.apply value

instance (v : View) (c : Column) (value : Value) : Decidable (v.AcceptsValue c value) :=
  decidable_of_iff (c.affinity.apply value = value ∧ (c.notNull = true → value ≠ .null) ∧
      ∀ parent ∈ c.parent, value = .null ∨ ∃ r ∈ v.rows parent, key r = Affinity.integer.apply value)
    ⟨fun h ↦ ⟨h.1, h.2.1, h.2.2⟩, fun h ↦ ⟨h.stored, h.notNull, h.parent⟩⟩

/-- A row that is inserted as it is. -/
structure View.Accepts (v : View) (d : Definition) (row : Row) : Prop where
  length : row.length = d.columns.length
  values : ∀ e ∈ d.columns.zip row, v.AcceptsValue e.1 e.2
  check : d.check (d.value row) = true
  key : ∃ n, key row = .int n

theorem zipWith_eq_self {columns : List Column} {row : Row} (hlength : row.length = columns.length)
    (h : ∀ e ∈ columns.zip row, e.1.affinity.apply e.2 = e.2) :
    List.zipWith (fun c value ↦ c.affinity.apply value) columns row = row := by
  induction columns generalizing row with
  | nil => rw [List.length_eq_zero_iff.mp hlength, List.zipWith_nil_right]
  | cons c columns ih =>
      cases row with
      | nil => rfl
      | cons value row =>
          rw [List.zip_cons_cons, List.forall_mem_cons] at h
          rw [List.zipWith_cons_cons, h.1, ih (Nat.succ.inj hlength) h.2]

def idOf (row : Row) : ℤ :=
  match key row with
  | .int n => n
  | _ => 0

/-- The sequence after an insertion. -/
def raise (sequence : Option ℤ) (row : Row) : Option ℤ := some (max (sequence.getD 0) (idOf row))

/-- The effect of a statement that inserts no row. -/
def View.startSequence (v : View) (name : String) : View :=
  { v with sequences := Function.update v.sequences name (some ((v.sequences name).getD 0)) }

/-- The effect of inserted rows. -/
def View.insertRows (v : View) (name : String) (t : Table) (rows : List Row) : View where
  tables := Function.update v.tables name (some { t with rows := t.rows ++ rows })
  sequences := Function.update v.sequences name (rows.foldl raise (v.sequences name))
  objects := v.objects

theorem exists_insertRow {row : Row} {db : Database} (hview : db.view = v)
    (h : v.tables name = some t) (hauto : t.autoincrement = true)
    (hobjects : ∀ o ∈ v.objects, o.table ≠ name) (hrow : v.Accepts t.toDefinition row)
    (hfresh : key row ∉ t.rows.map key) :
    ∃ db', db.insertRow name row = .ok db' ∧ db'.view = v.insertRows name t [row] := by
  subst hview
  have hlookup : db.tables.lookup name = some t := h
  obtain ⟨n, hn⟩ := hrow.key
  have hhead : row.head? ≠ some .null := by
    intro hnull
    rw [key, List.headD_eq_head?_getD, hnull] at hn
    cases hn
  have hraises : db.raises name t row = false := by
    unfold Database.raises
    rw [List.any_eq_false]
    intro o ho
    split
    · simp [hobjects o ho]
    · exact Bool.false_ne_true
  have hindexes : db.uniqueIndexes name = [] := by
    unfold Database.uniqueIndexes
    rw [List.filterMap_eq_nil_iff]
    intro o ho
    split
    · exact if_neg (hobjects o ho)
    · rfl
  have hnull : (t.columns.zip row).any (fun e ↦ e.1.notNull && e.2 = .null) = false := by
    rw [List.any_eq_false]
    intro e he hboth
    rw [Bool.and_eq_true, decide_eq_true_eq] at hboth
    exact (hrow.values e he).notNull hboth.1 hboth.2
  have hkeys : t.rows.any (fun row' ↦ key row' = .int n) = false := by
    rw [List.any_eq_false]
    intro row' hrow' hsame
    rw [decide_eq_true_eq, ← hn] at hsame
    exact hfresh (List.mem_map.mpr ⟨row', hrow', hsame⟩)
  have hparents : db.hasParents t.toDefinition row = true := by
    unfold Database.hasParents
    rw [List.all_eq_true]
    rintro ⟨c, value⟩ he
    dsimp only
    cases hparent : c.parent with
    | none => rfl
    | some parent =>
        rw [Bool.or_eq_true, decide_eq_true_eq, List.any_eq_true]
        refine ((hrow.values _ he).parent parent hparent).imp_right ?_
        rintro ⟨r, hr, hkey⟩
        exact ⟨r, hr, decide_eq_true hkey⟩
  refine ⟨{ db with
    tables := db.tables.insert name { t with rows := t.rows ++ [row] }
    sequences := db.sequences.insert name (max (db.sequence name) n) }, ?_, ?_⟩
  · unfold Database.insertRow
    simp only [hlookup, hauto, hhead, zipWith_eq_self hrow.length fun e he ↦ (hrow.values e he).stored,
      hraises, hindexes, hnull, hn, hkeys, hparents, hrow.check, and_false, if_false, Bool.false_eq_true,
      Bool.not_true, Bool.and_false, Bool.or_false, List.any_nil]
    rfl
  · refine View.ext (lookup_insert_eq_update db.tables name _)
      ((lookup_insert_eq_update db.sequences name _).trans ?_) rfl
    have hraise : raise (db.view.sequences name) row = some (max (db.sequence name) n) := by
      rw [raise, idOf, hn]
      rfl
    rw [← hraise]
    rfl

theorem insertRows_insertRows (v : View) (name : String) (t : Table) (row : Row)
    (rows : List Row) :
    (v.insertRows name t [row]).insertRows name { t with rows := t.rows ++ [row] } rows =
      v.insertRows name t (row :: rows) := by
  refine View.ext ?_ ?_ rfl
  · dsimp only [View.insertRows]
    rw [Function.update_idem, List.append_assoc, List.singleton_append]
  · dsimp only [View.insertRows]
    rw [Function.update_idem, Function.update_self]
    rfl

/-- Only the ids of parents decide what is accepted. -/
theorem View.Accepts.congr {row : Row} {v' : View} (h : v.Accepts d row)
    (hkeys : ∀ c ∈ d.columns, ∀ parent, c.parent = some parent →
      (v'.rows parent).map Sqlite.key = (v.rows parent).map Sqlite.key) : v'.Accepts d row := by
  refine ⟨h.length, fun e he ↦ ?_, h.check, h.key⟩
  obtain ⟨hstored, hnull, hparent⟩ := h.values e he
  refine ⟨hstored, hnull, fun parent hc ↦ (hparent parent hc).imp_right ?_⟩
  rintro ⟨r, hr, hkey⟩
  have hmem : Sqlite.key r ∈ (v'.rows parent).map Sqlite.key := by
    rw [hkeys e.1 (List.of_mem_zip he).1 parent hc]
    exact List.mem_map_of_mem hr
  obtain ⟨r', hr', hkey'⟩ := List.mem_map.mp hmem
  exact ⟨r', hr', hkey'.trans hkey⟩

/-- Rows of one table do not decide what another table accepts. -/
theorem View.Accepts.insertRows {row : Row} (h : v.Accepts d row)
    (hfree : ∀ c ∈ d.columns, c.parent ≠ some name) (t : Table) (rows : List Row) :
    (v.insertRows name t rows).Accepts d row := by
  refine h.congr fun c hc parent hparent ↦ ?_
  have hne : parent ≠ name := fun hname ↦ hfree c hc (hname ▸ hparent)
  dsimp only [View.rows, View.insertRows]
  rw [Function.update_of_ne hne]

theorem exists_insertRows {rows : List Row} {db : Database} (hview : db.view = v)
    (h : v.tables name = some t) (hauto : t.autoincrement = true)
    (hobjects : ∀ o ∈ v.objects, o.table ≠ name) (hfree : ∀ c ∈ t.columns, c.parent ≠ some name)
    (hrows : ∀ row ∈ rows, v.Accepts t.toDefinition row)
    (hnodup : ((t.rows ++ rows).map key).Nodup) :
    ∃ db', rows.foldlM (fun db row ↦ db.insertRow name row) db = .ok db' ∧
      db'.view = v.insertRows name t rows := by
  induction rows generalizing db v t with
  | nil =>
      refine ⟨db, rfl, hview.trans (View.ext ?_ ?_ rfl)⟩
      · rw [View.insertRows, List.append_nil, ← h, Function.update_eq_self]
      · exact (Function.update_eq_self name v.sequences).symm
  | cons row rows ih =>
      obtain ⟨hrow, hrest⟩ := List.forall_mem_cons.mp hrows
      have hfresh : key row ∉ t.rows.map key := by
        intro hmem
        rw [List.map_append, List.map_cons, List.nodup_append] at hnodup
        exact hnodup.2.2 _ hmem _ List.mem_cons_self rfl
      obtain ⟨db₁, hinsert, hview₁⟩ := exists_insertRow hview h hauto hobjects hrow hfresh
      have hsplit : t.rows ++ row :: rows = (t.rows ++ [row]) ++ rows := by simp
      rw [hsplit] at hnodup
      obtain ⟨db₂, hrun, hview₂⟩ := @ih (v.insertRows name t [row])
        { t with rows := t.rows ++ [row] } db₁ hview₁ (Function.update_self ..) hauto hobjects hfree
        (fun row' hrow' ↦ (hrest row' hrow').insertRows hfree t [row]) hnodup
      refine ⟨db₂, ?_, hview₂.trans (insertRows_insertRows v name t row rows)⟩
      rw [List.foldlM_cons, hinsert]
      exact hrun

theorem view_startSequence {db : Database} (hauto : d.autoincrement = true) :
    (db.startSequence name d).view = db.view.startSequence name := by
  rw [Database.startSequence, if_pos hauto]
  exact View.ext rfl (lookup_insert_eq_update db.sequences name _) rfl

/-- Rows that are copied into a table that nothing else is known of. -/
theorem does_insertSelect {columns selected : Names} {rows : List Row}
    (h : v.tables name = some t) (hs : v.tables source = some s) (hauto : t.autoincrement = true)
    (hlength : (columns.of t.toDefinition).length = (selected.of s.toDefinition).length)
    (hcopy : s.rows.map (fun row ↦ t.fill (columns.of t.toDefinition)
      ((selected.of s.toDefinition).map (s.value row))) = rows)
    (hobjects : ∀ o ∈ v.objects, o.table ≠ name) (hfree : ∀ c ∈ t.columns, c.parent ≠ some name)
    (hrows : ∀ row ∈ rows, v.Accepts t.toDefinition row)
    (hnodup : ((t.rows ++ rows).map key).Nodup) :
    (Statement.insertSelect name columns source selected).Does v
      ((v.startSequence name).insertRows name t rows) := by
  intro db hview
  have hstart : (db.startSequence name t.toDefinition).view = v.startSequence name := by
    rw [view_startSequence hauto, hview]
  obtain ⟨db', hrun, hview'⟩ := exists_insertRows hstart h hauto hobjects hfree
    (fun row hrow ↦ (hrows row hrow).congr fun _ _ _ _ ↦ rfl) hnodup
  subst hview
  have hlookup : db.tables.lookup name = some t := h
  have hlookup' : db.tables.lookup source = some s := hs
  refine ⟨db', ?_, hview'⟩
  simp only [Statement.exec, hlookup, hlookup', if_pos hlength, hcopy]
  exact hrun

theorem foldl_raise_isSome (rows : List Row) (n : ℤ) :
    (rows.foldl raise (some n)).isSome = true := by
  induction rows generalizing n with
  | nil => rfl
  | cons row rows ih => exact ih _

/-- Objects are made one after the other. -/
theorem does_createObjects {os : List SchemaObject}
    (htables : ∀ o ∈ os, ∃ t, v.tables o.table = some t ∧
      ∀ columns, o.kind = .index true columns → t.isUnique columns = true)
    (hnames : ((v.objects ++ os).map (·.name)).Nodup) :
    Does (os.map .createObject) v { v with objects := v.objects ++ os } := by
  induction os generalizing v with
  | nil => exact View.ext rfl rfl (List.append_nil _).symm
  | cons o os ih =>
      obtain ⟨⟨t, ht, hunique⟩, hrest⟩ := List.forall_mem_cons.mp htables
      have hsplit : v.objects ++ o :: os = (v.objects ++ [o]) ++ os := by simp
      have hfresh : ∀ o' ∈ v.objects, o'.name ≠ o.name := by
        intro o' ho'
        rw [List.map_append, List.map_cons, List.nodup_append] at hnames
        exact hnames.2.2 _ (List.mem_map_of_mem ho') _ List.mem_cons_self
      rw [hsplit] at hnames ⊢
      exact ⟨_, does_createObject ht hfresh hunique, ih hrest hnames⟩

/-- Sequences are raised one after the other, where there are some. -/
theorem does_raiseSequences (v : View) (ss : List (String × ℤ)) :
    ∃ v', Does (ss.map fun s ↦ .raiseSequence s.1 s.2) v v' ∧ v'.tables = v.tables ∧
      v'.objects = v.objects ∧
      (∀ name n, v.sequences name = some n → ∃ m, v'.sequences name = some m ∧ n ≤ m ∧
        ∀ k, (name, k) ∈ ss → k ≤ m) ∧
      ∀ name ∉ ss.map Prod.fst, v'.sequences name = v.sequences name := by
  induction ss generalizing v with
  | nil =>
      exact ⟨v, rfl, rfl, rfl,
        fun name n h ↦ ⟨n, h, le_rfl, fun k hk ↦ nomatch hk⟩, fun _ _ ↦ rfl⟩
  | cons s ss ih =>
      obtain ⟨name, value⟩ := s
      obtain ⟨v', hdoes, htables, hobjects, hsome, hother⟩ := ih {
        v with sequences :=
          Function.update v.sequences name ((v.sequences name).map fun n ↦ max n value) }
      refine ⟨v', ⟨_, does_raiseSequence value, hdoes⟩, htables, hobjects, fun a n ha ↦ ?_,
        fun a ha ↦ ?_⟩
      · by_cases hname : a = name
        · subst hname
          obtain ⟨m, hm, hle, hbound⟩ := hsome a (max n value) (by
            dsimp only
            rw [Function.update_self, ha]
            rfl)
          refine ⟨m, hm, (le_max_left n value).trans hle, fun k hk ↦ ?_⟩
          rcases List.mem_cons.mp hk with hk | hk
          · rw [(Prod.mk.inj hk).2]
            exact (le_max_right n value).trans hle
          · exact hbound k hk
        · obtain ⟨m, hm, hle, hbound⟩ := hsome a n ((Function.update_of_ne hname _ _).trans ha)
          refine ⟨m, hm, hle, fun k hk ↦ ?_⟩
          rcases List.mem_cons.mp hk with hk | hk
          · exact absurd (Prod.mk.inj hk).1 hname
          · exact hbound k hk
      · rw [List.map_cons, List.mem_cons, not_or] at ha
        rw [hother a ha.2]
        exact Function.update_of_ne ha.1 _ _

end Statements

/-! ## Columns by name and by position -/

section Columns

variable {d : Definition} {columns : List Column} {names : List String} {values row : Row}

theorem lookup_zip_of_notMem {name : String} (h : name ∉ names) :
    (names.zip values).lookup name = none := by
  rw [List.lookup_eq_none_iff]
  rintro ⟨name', value⟩ hmem
  rw [bne_iff_ne]
  exact fun hsame ↦ h (hsame ▸ (List.of_mem_zip hmem).1)

/-- Values under their names are found in the order of the names. -/
theorem map_lookup_zip {α : Type} (f : α → String) (default : α → Value) {xs : List α}
    (hnodup : (xs.map f).Nodup) (hlength : values.length = xs.length) (names : List String)
    (values' : Row) :
    xs.map (fun x ↦
        (((xs.map f ++ names).zip (values ++ values')).lookup (f x)).getD (default x)) = values := by
  induction xs generalizing values with
  | nil => exact (List.length_eq_zero_iff.mp hlength).symm
  | cons x xs ih =>
      cases values with
      | nil => cases hlength
      | cons value values =>
          rw [List.map_cons, List.nodup_cons] at hnodup
          rw [List.map_cons, List.map_cons, List.cons_append, List.cons_append, List.zip_cons_cons,
            List.lookup_cons_self, Option.getD_some]
          congr 1
          refine Eq.trans (List.map_congr_left fun y hy ↦ ?_) (ih hnodup.2 (Nat.succ.inj hlength))
          have hne : (f y == f x) = false :=
            beq_eq_false_iff_ne.mpr fun hsame ↦ hnodup.1 (hsame ▸ List.mem_map_of_mem hy)
          rw [List.lookup_cons, hne]

/-- The first columns of a row. -/
theorem map_value_append {kept extra : List Column} {values' : Row}
    (hcolumns : d.columns = kept ++ extra) (hnodup : (kept.map (·.name)).Nodup)
    (hlength : values.length = kept.length) :
    (kept.map (·.name)).map (d.value (values ++ values')) = values := by
  unfold Definition.value Definition.names
  rw [hcolumns, List.map_append, List.map_map]
  exact map_lookup_zip Column.name (fun _ ↦ .null) hnodup hlength _ values'

/-- All columns of a row. -/
theorem map_value_names (hnodup : d.names.Nodup) (hlength : row.length = d.columns.length) :
    d.names.map (d.value row) = row := by
  have h := @map_value_append d row d.columns [] [] (List.append_nil _).symm hnodup hlength
  rwa [List.append_nil] at h

/-- All columns of a table are filled by position. -/
theorem fill_names (hnodup : d.names.Nodup) (hlength : values.length = d.columns.length) :
    d.fill d.names values = values := by
  have h := map_lookup_zip Column.name Column.default hnodup hlength [] []
  rwa [List.append_nil, List.append_nil] at h

/-- The first columns of a table are filled by name, and the others have their defaults. -/
theorem fill_append {kept extra : List Column} (hcolumns : d.columns = kept ++ extra)
    (hnodup : d.names.Nodup) (hlength : values.length = kept.length) :
    d.fill (kept.map (·.name)) values = values ++ extra.map (·.default) := by
  have hnames : d.names = kept.map (·.name) ++ extra.map (·.name) := by
    rw [Definition.names, hcolumns, List.map_append]
  rw [hnames, List.nodup_append] at hnodup
  unfold Definition.fill
  rw [hcolumns, List.map_append]
  congr 1
  · have h := map_lookup_zip Column.name Column.default hnodup.1 hlength [] []
    rwa [List.append_nil, List.append_nil] at h
  · refine List.map_congr_left fun c hc ↦ ?_
    have hnot : c.name ∉ kept.map (·.name) := fun hmem ↦
      hnodup.2.2 _ hmem _ (List.mem_map_of_mem hc) rfl
    rw [lookup_zip_of_notMem hnot, Option.getD_none]

/-- The value of a column stands at its place. -/
theorem value_of_mem_zip {c : Column} {value : Value} (hnodup : d.names.Nodup)
    (h : (c, value) ∈ d.columns.zip row) : d.value row c.name = value := by
  unfold Definition.value
  unfold Definition.names at hnodup ⊢
  generalize d.columns = cs at hnodup h ⊢
  induction cs generalizing row with
  | nil => cases h
  | cons c' columns ih =>
      cases row with
      | nil => cases h
      | cons value' row =>
          rw [List.map_cons, List.nodup_cons] at hnodup
          rw [List.zip_cons_cons] at h
          rw [List.map_cons, List.zip_cons_cons]
          rcases List.mem_cons.mp h with h | h
          · obtain ⟨rfl, rfl⟩ := Prod.mk.inj h
            rw [List.lookup_cons_self, Option.getD_some]
          · have hne : (c.name == c'.name) = false := beq_eq_false_iff_ne.mpr fun hsame ↦
              hnodup.1 (hsame ▸ List.mem_map_of_mem (List.of_mem_zip h).1)
            rw [List.lookup_cons, hne]
            exact ih hnodup.2 h

/-- Columns of another table with the same values. -/
theorem exists_mem_zip_of_forall₂ {R : Column → Column → Prop} {columns' : List Column}
    (h : List.Forall₂ R columns columns') {e : Column × Value} (he : e ∈ columns'.zip row) :
    ∃ c, R c e.1 ∧ (c, e.2) ∈ columns.zip row := by
  induction h generalizing row with
  | nil => cases he
  | cons hR _ ih =>
      cases row with
      | nil => cases he
      | cons value row =>
          rw [List.zip_cons_cons] at he
          rcases List.mem_cons.mp he with rfl | he
          · exact ⟨_, hR, List.mem_cons_self⟩
          · obtain ⟨c, hc, hmem⟩ := ih he
            exact ⟨c, hc, List.mem_cons_of_mem _ hmem⟩

end Columns

end Sqlite
