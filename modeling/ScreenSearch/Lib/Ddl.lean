import Mathlib.Logic.Function.Basic
import Mathlib.Tactic.Common

/-!
# Schema statements

Tables, indexes and triggers by their names, and the statements that create, alter and drop
them. A statement changes the schema, or fails by it alone, and changes the rows; so whether
a script succeeds does not depend on what is stored.

Main results:

* `runAll_eq` — a script is its effect on the schema and its effect on the rows;
* `runAll_soundOn` — a script that spares the keys keeps what refers to rows that are there;
* `rebuild_soundOn` — so does rebuilding a parent from a copy of its rows.
-/

namespace Ddl

inductive Value where
  | null
  | integer (n : Int)
  | text (s : String)
  deriving DecidableEq, Repr

/-- A row by its columns; null elsewhere. -/
abbrev Row := String → Value

/-- `column REFERENCES parent(key)`. -/
structure ForeignKey where
  column : String
  parent : String
  key : String
  deriving DecidableEq, Repr

structure Table where
  name : String
  columns : List String
  foreignKeys : List ForeignKey
  deriving DecidableEq, Repr

/-- An index or a trigger, of a table. -/
structure Attached where
  name : String
  table : String
  deriving DecidableEq, Repr

structure Schema where
  tables : List Table
  indexes : List Attached
  triggers : List Attached
  deriving DecidableEq, Repr

/-- The rows of each table. -/
abbrev Rows := String → List Row

structure Database where
  schema : Schema
  rows : Rows

inductive Statement where
  | createTable (t : Table)
  | createIndex (name table : String) (columns : List String) (ifNotExists : Bool)
  | createTrigger (name table : String)
  | dropTable (name : String) (ifExists : Bool)
  | dropIndex (name : String) (ifExists : Bool)
  | dropTrigger (name : String) (ifExists : Bool)
  | addColumn (table column : String) (foreignKey : Option ForeignKey) (default : Value)
  | renameTable (old new : String)
  /-- `INSERT INTO target (columns) SELECT columns FROM source`. -/
  | copyRows (source target : String) (columns : List String)
  /-- `DELETE FROM table WHERE column = value`. -/
  | deleteRows (table column : String) (value : Value)
  deriving DecidableEq, Repr

/-! ## Statements -/

namespace Schema

def empty : Schema where
  tables := []
  indexes := []
  triggers := []

def table? (s : Schema) (name : String) : Option Table := s.tables.find? fun t => t.name == name

def hasTable (s : Schema) (name : String) : Bool := s.tables.any fun t => t.name == name

def hasIndex (s : Schema) (name : String) : Bool := s.indexes.any fun i => i.name == name

def hasTrigger (s : Schema) (name : String) : Bool := s.triggers.any fun t => t.name == name

/-- Whether the table is there and has the columns. -/
def hasColumns (s : Schema) (name : String) (columns : List String) : Bool :=
  (s.table? name).any fun t => columns.all t.columns.contains

/-- The foreign keys of all tables. -/
def foreignKeys (s : Schema) : List ForeignKey := s.tables.flatMap Table.foreignKeys

end Schema

def Table.addColumn (t : Table) (column : String) (foreignKey : Option ForeignKey) : Table :=
  { t with
    columns := t.columns ++ [column]
    foreignKeys := t.foreignKeys ++ foreignKey.toList }

def Table.rename (old new : String) (t : Table) : Table :=
  { t with
    name := if t.name = old then new else t.name
    foreignKeys := t.foreignKeys.map fun fk =>
      if fk.parent = old then { fk with parent := new } else fk }

def Attached.rename (old new : String) (a : Attached) : Attached :=
  if a.table = old then { a with table := new } else a

/-- What a statement makes of the schema; tables and indexes share their names. -/
def Statement.onSchema : Statement → Schema → Except String Schema
  | .createTable t, s =>
    if s.hasTable t.name || s.hasIndex t.name then .error "already exists"
    else .ok { s with tables := s.tables ++ [t] }
  | .createIndex name table columns ifNotExists, s =>
    if s.hasIndex name && ifNotExists then .ok s
    else if s.hasTable name || s.hasIndex name then .error "already exists"
    else if s.hasColumns table columns then
      .ok { s with indexes := s.indexes ++ [⟨name, table⟩] }
    else .error "no such table or column"
  | .createTrigger name table, s =>
    if s.hasTrigger name then .error "already exists"
    else if s.hasTable table then .ok { s with triggers := s.triggers ++ [⟨name, table⟩] }
    else .error "no such table"
  | .dropTable name ifExists, s =>
    if s.hasTable name then
      .ok
        { tables := s.tables.filter fun t => t.name ≠ name
          indexes := s.indexes.filter fun i => i.table ≠ name
          triggers := s.triggers.filter fun t => t.table ≠ name }
    else if ifExists then .ok s
    else .error "no such table"
  | .dropIndex name ifExists, s =>
    if s.hasIndex name then .ok { s with indexes := s.indexes.filter fun i => i.name ≠ name }
    else if ifExists then .ok s
    else .error "no such index"
  | .dropTrigger name ifExists, s =>
    if s.hasTrigger name then .ok { s with triggers := s.triggers.filter fun t => t.name ≠ name }
    else if ifExists then .ok s
    else .error "no such trigger"
  | .addColumn table column foreignKey _, s =>
    if !s.hasTable table then .error "no such table"
    else if s.hasColumns table [column] then .error "duplicate column name"
    else .ok { s with tables := s.tables.map fun t =>
      if t.name = table then t.addColumn column foreignKey else t }
  | .renameTable old new, s =>
    if !s.hasTable old then .error "no such table"
    else if s.hasTable new || s.hasIndex new then .error "already exists"
    else .ok
      { tables := s.tables.map (Table.rename old new)
        indexes := s.indexes.map (Attached.rename old new)
        triggers := s.triggers.map (Attached.rename old new) }
  | .copyRows source target columns, s =>
    if s.hasColumns source columns && s.hasColumns target columns then .ok s
    else .error "no such table or column"
  | .deleteRows table column _, s =>
    if s.hasColumns table [column] then .ok s else .error "no such table or column"

def project (columns : List String) (row : Row) : Row :=
  fun column => if column ∈ columns then row column else .null

/-- What a statement makes of the rows. -/
def Statement.onRows : Statement → Rows → Rows
  | .createTable t, rows => Function.update rows t.name []
  | .dropTable name _, rows => Function.update rows name []
  | .addColumn table column _ default, rows =>
    Function.update rows table ((rows table).map fun row => Function.update row column default)
  | .renameTable old new, rows => Function.update (Function.update rows new (rows old)) old []
  | .copyRows source target columns, rows =>
    Function.update rows target (rows target ++ (rows source).map (project columns))
  | .deleteRows table column value, rows =>
    Function.update rows table ((rows table).filter fun row => row column ≠ value)
  | .createIndex .., rows | .createTrigger .., rows | .dropIndex .., rows | .dropTrigger .., rows =>
    rows

def Statement.run (s : Statement) (db : Database) : Except String Database :=
  match s.onSchema db.schema with
  | .ok schema => .ok ⟨schema, s.onRows db.rows⟩
  | .error e => .error e

/-- One statement after the other, until one fails. -/
def runAll (statements : List Statement) (db : Database) : Except String Database :=
  statements.foldlM (fun db s => s.run db) db

def runSchema (statements : List Statement) (schema : Schema) : Except String Schema :=
  statements.foldlM (fun schema s => s.onSchema schema) schema

def runRows (statements : List Statement) (rows : Rows) : Rows :=
  statements.foldl (fun rows s => s.onRows rows) rows

variable {db db' : Database} {schema : Schema} {statements : List Statement}

/-- A script fails by the schema alone. -/
theorem runAll_eq (statements : List Statement) (db : Database) :
    runAll statements db = match runSchema statements db.schema with
      | .ok schema => .ok ⟨schema, runRows statements db.rows⟩
      | .error e => .error e := by
  induction statements generalizing db with
  | nil => rfl
  | cons s rest ih =>
    unfold runAll runSchema
    rw [List.foldlM_cons, List.foldlM_cons]
    unfold Statement.run
    rcases hSchema : s.onSchema db.schema with e | schema
    · rfl
    · exact ih ⟨schema, s.onRows db.rows⟩

theorem runAll_of_schema (h : runSchema statements db.schema = .ok schema) :
    runAll statements db = .ok ⟨schema, runRows statements db.rows⟩ := by
  rw [runAll_eq, h]

theorem runAll_of_error {e : String} (h : runSchema statements db.schema = .error e) :
    runAll statements db = .error e := by
  rw [runAll_eq, h]

/-! ## Foreign keys -/

/-- A row refers to a row that is there, or to none. -/
def Refers (rows : Rows) (fk : ForeignKey) (row : Row) : Prop :=
  row fk.column = .null ∨ ∃ parent ∈ rows fk.parent, parent fk.key = row fk.column

instance (rows : Rows) (fk : ForeignKey) (row : Row) : Decidable (Refers rows fk row) :=
  inferInstanceAs (Decidable (_ ∨ _))

/-- Every row that `keep` is about, or every row of every table, refers to rows that are there. -/
def SoundOn (keep : String → Row → Prop) (db : Database) : Prop :=
  ∀ t ∈ db.schema.tables, ∀ fk ∈ t.foreignKeys, ∀ row ∈ db.rows t.name, keep t.name row →
    Refers db.rows fk row

def Sound (db : Database) : Prop :=
  ∀ t ∈ db.schema.tables, ∀ fk ∈ t.foreignKeys, ∀ row ∈ db.rows t.name, Refers db.rows fk row

instance (db : Database) : Decidable (Sound db) :=
  inferInstanceAs (Decidable (∀ t ∈ db.schema.tables, _))

/-- The statement adds no row, and changes or takes no key that a row may refer to. -/
def Statement.sparesKeys (s : Schema) : Statement → Bool
  | .createTable t => (s.foreignKeys ++ t.foreignKeys).all fun fk => fk.parent ≠ t.name
  | .dropTable name _ => (s.tables.filter fun t => t.name ≠ name).all fun t =>
    t.foreignKeys.all fun fk => fk.parent ≠ name
  | .addColumn table column foreignKey default =>
    (s.foreignKeys.all fun fk => fk.key ≠ column && fk.column ≠ column)
    && foreignKey.all fun fk => fk.column = column && fk.key ≠ column && default = .null
  | .deleteRows table _ _ => s.foreignKeys.all fun fk => fk.parent ≠ table
  | .renameTable .. | .copyRows .. => false
  | .createIndex .. | .createTrigger .. | .dropIndex .. | .dropTrigger .. => true

/-- `keep` does not look at the column that the statement adds. -/
def Statement.AddsUnseen (keep : String → Row → Prop) : Statement → Prop
  | .addColumn table column _ default => ∀ row,
    keep table (Function.update row column default) → keep table row
  | _ => True

theorem mem_foreignKeys {t : Table} {fk : ForeignKey} (ht : t ∈ schema.tables)
    (hfk : fk ∈ t.foreignKeys) : fk ∈ schema.foreignKeys :=
  List.mem_flatMap.mpr ⟨t, ht, hfk⟩

variable {keep : String → Row → Prop}

/-- A table that is nobody's parent loses rows. -/
theorem update_soundOn (h : SoundOn keep db) {name : String} {kept : List Row} {after : Schema}
    (hTables : ∀ t ∈ after.tables, t.foreignKeys ≠ [] → t ∈ db.schema.tables ∨ t.name = name)
    (hKept : kept = [] ∨ kept.Sublist (db.rows name) ∧ after.tables = db.schema.tables)
    (hParent : ∀ t ∈ after.tables, ∀ fk ∈ t.foreignKeys, fk.parent ≠ name) :
    SoundOn keep ⟨after, Function.update db.rows name kept⟩ := by
  intro t ht fk hfk row hRow hKeep
  have hParents : Function.update db.rows name kept fk.parent = db.rows fk.parent :=
    Function.update_of_ne (hParent t ht fk hfk) _ _
  have hOld : t ∈ db.schema.tables ∧ row ∈ db.rows t.name := by
    replace hRow : row ∈ Function.update db.rows name kept t.name := hRow
    by_cases hName : t.name = name
    · rw [hName, Function.update_self] at hRow
      rcases hKept with rfl | ⟨hSub, hSame⟩
      · cases hRow
      · exact ⟨hSame ▸ ht, hName ▸ hSub.subset hRow⟩
    · rw [Function.update_of_ne hName] at hRow
      exact ⟨(hTables t ht (List.ne_nil_of_mem hfk)).resolve_right hName, hRow⟩
  show row fk.column = .null ∨ ∃ parent ∈ Function.update db.rows name kept fk.parent, _
  rw [hParents]
  exact h t hOld.1 fk hfk row hOld.2 hKeep

/-- Rows keep what they had in other columns. -/
theorem addColumn_refers {rows : Rows} {table column : String} {default : Value}
    {fk : ForeignKey} {row row' : Row} (hKey : fk.key ≠ column)
    (hSame : row' fk.column = row fk.column) (h : Refers rows fk row) :
    Refers (Function.update rows table
      ((rows table).map fun row => Function.update row column default)) fk row' := by
  rcases h with hNull | ⟨parent, hParent, hEq⟩
  · exact Or.inl (hSame.trans hNull)
  · right
    by_cases hTable : fk.parent = table
    · refine ⟨Function.update parent column default, ?_, ?_⟩
      · rw [hTable, Function.update_self]
        exact List.mem_map_of_mem (hTable ▸ hParent)
      · rw [Function.update_of_ne hKey, hEq, hSame]
    · exact ⟨parent, by rwa [Function.update_of_ne hTable], hEq.trans hSame.symm⟩

theorem addColumn_soundOn (h : SoundOn keep db) {table column : String}
    {foreignKey : Option ForeignKey} {default : Value} {after : Schema}
    (hTables : after.tables = db.schema.tables.map fun t =>
      if t.name = table then t.addColumn column foreignKey else t)
    (hSpares : (Statement.addColumn table column foreignKey default).sparesKeys db.schema = true)
    (hUnseen : (Statement.addColumn table column foreignKey default).AddsUnseen keep) :
    SoundOn keep ⟨after, (Statement.addColumn table column foreignKey default).onRows db.rows⟩ := by
  obtain ⟨hOld, hNew⟩ := Bool.and_eq_true_iff.mp hSpares
  intro t' ht' fk hfk row hRow hKeep
  replace ht' : t' ∈ after.tables := ht'
  rw [hTables] at ht'
  obtain ⟨t, ht, rfl⟩ := List.mem_map.mp ht'
  have hName : (if t.name = table then t.addColumn column foreignKey else t).name = t.name := by
    split <;> rfl
  rw [hName] at hRow hKeep
  unfold Statement.onRows at hRow ⊢
  dsimp only at hRow ⊢
  -- the row as it was, and whether the key is the one of the new column
  obtain ⟨row₀, hRow₀, hKeep₀, hSame⟩ : ∃ row₀ ∈ db.rows t.name, keep t.name row₀ ∧
      (t.name = table ∧ row = Function.update row₀ column default ∨
        t.name ≠ table ∧ row = row₀) := by
    by_cases hTable : t.name = table
    · rw [hTable, Function.update_self] at hRow
      obtain ⟨row₀, hRow₀, rfl⟩ := List.mem_map.mp hRow
      exact ⟨row₀, hTable ▸ hRow₀, hTable ▸ hUnseen row₀ (hTable ▸ hKeep), .inl ⟨hTable, rfl⟩⟩
    · rw [Function.update_of_ne hTable] at hRow
      exact ⟨row, hRow, hKeep, .inr ⟨hTable, rfl⟩⟩
  have hIn : fk ∈ t.foreignKeys ∨ t.name = table ∧ foreignKey = some fk := by
    split at hfk
    · next hTable =>
      rcases List.mem_append.mp hfk with hfk | hfk
      · exact .inl hfk
      · exact .inr ⟨hTable, Option.mem_toList.mp hfk⟩
    · exact .inl hfk
  rcases hIn with hfk | ⟨hTable, rfl⟩
  · have hOther := List.all_eq_true.mp hOld fk (mem_foreignKeys ht hfk)
    simp only [ne_eq, decide_not, Bool.and_eq_true, Bool.not_eq_eq_eq_not, Bool.not_true,
      decide_eq_false_iff_not] at hOther
    refine addColumn_refers hOther.1 ?_ (h t ht fk hfk row₀ hRow₀ hKeep₀)
    rcases hSame with ⟨-, rfl⟩ | ⟨-, rfl⟩
    · exact Function.update_of_ne hOther.2 _ _
    · rfl
  · simp only [Option.all_some, ne_eq, decide_not, Bool.and_eq_true, decide_eq_true_eq] at hNew
    rcases hSame with ⟨-, rfl⟩ | ⟨hOther, -⟩
    · exact Or.inl (by rw [hNew.1.1, Function.update_self, hNew.2])
    · exact absurd hTable hOther

/-- One statement that spares the keys. -/
theorem run_soundOn {s : Statement} (h : SoundOn keep db) (hRun : s.onSchema db.schema = .ok schema)
    (hSpares : s.sparesKeys db.schema = true) (hUnseen : s.AddsUnseen keep) :
    SoundOn keep ⟨schema, s.onRows db.rows⟩ := by
  have hSame : schema.tables = db.schema.tables → SoundOn keep ⟨schema, db.rows⟩ := by
    intro hTables t ht
    exact h t (hTables ▸ ht)
  cases s with
  | createTable t =>
    simp only [Statement.onSchema] at hRun
    split at hRun
    · cases hRun
    · cases hRun
      refine update_soundOn h ?_ (.inl rfl) ?_
      · intro t' ht' _
        rcases List.mem_append.mp ht' with ht' | ht'
        · exact .inl ht'
        · exact .inr (congrArg Table.name (List.mem_singleton.mp ht'))
      · intro t' ht' fk hfk
        refine of_decide_eq_true (List.all_eq_true.mp hSpares fk ?_)
        rcases List.mem_append.mp ht' with ht' | ht'
        · exact List.mem_append_left _ (mem_foreignKeys ht' hfk)
        · rw [List.mem_singleton.mp ht'] at hfk
          exact List.mem_append_right _ hfk
  | dropTable name ifExists =>
    -- no other table refers to the one that goes
    have hParent : ∀ t ∈ db.schema.tables, t.name ≠ name → ∀ fk ∈ t.foreignKeys,
        fk.parent ≠ name := by
      intro t ht hName fk hfk
      have ht : t ∈ db.schema.tables.filter fun t => t.name ≠ name :=
        List.mem_filter.mpr ⟨ht, decide_eq_true hName⟩
      exact of_decide_eq_true (List.all_eq_true.mp (List.all_eq_true.mp hSpares t ht) fk hfk)
    simp only [Statement.onSchema] at hRun
    split at hRun
    · cases hRun
      refine update_soundOn h (fun t ht _ => .inl (List.mem_filter.mp ht).1) (.inl rfl) ?_
      intro t ht
      obtain ⟨ht, hName⟩ := List.mem_filter.mp ht
      exact hParent t ht (of_decide_eq_true hName)
    · -- there is no such table, and `IF EXISTS` lets that pass
      next hMissing =>
      split at hRun
      · cases hRun
        refine update_soundOn h (fun t ht _ => .inl ht) (.inl rfl) ?_
        intro t ht
        refine hParent t ht fun hName => hMissing ?_
        exact List.any_eq_true.mpr ⟨t, ht, beq_iff_eq.mpr hName⟩
      · cases hRun
  | addColumn table column foreignKey default =>
    simp only [Statement.onSchema] at hRun
    split at hRun
    · cases hRun
    · split at hRun
      · cases hRun
      · cases hRun
        exact addColumn_soundOn h rfl hSpares hUnseen
  | deleteRows table column value =>
    simp only [Statement.onSchema] at hRun
    split at hRun
    · cases hRun
      refine update_soundOn h (fun t ht _ => .inl ht) (.inr ⟨List.filter_sublist, rfl⟩) ?_
      intro t ht fk hfk
      exact of_decide_eq_true (List.all_eq_true.mp hSpares fk (mem_foreignKeys ht hfk))
    · cases hRun
  | renameTable old new => cases hSpares
  | copyRows source target columns => cases hSpares
  | createIndex name table columns ifNotExists =>
    -- from here on no table changes
    simp only [Statement.onSchema] at hRun
    split at hRun
    · cases hRun; exact hSame rfl
    · split at hRun
      · cases hRun
      · split at hRun <;> cases hRun; exact hSame rfl
  | createTrigger name table =>
    simp only [Statement.onSchema] at hRun
    split at hRun
    · cases hRun
    · split at hRun <;> cases hRun; exact hSame rfl
  | dropIndex name ifExists =>
    simp only [Statement.onSchema] at hRun
    split at hRun
    · cases hRun; exact hSame rfl
    · split at hRun <;> cases hRun; exact hSame rfl
  | dropTrigger name ifExists =>
    simp only [Statement.onSchema] at hRun
    split at hRun
    · cases hRun; exact hSame rfl
    · split at hRun <;> cases hRun; exact hSame rfl

def sparesAll : List Statement → Schema → Bool
  | [], _ => true
  | s :: rest, schema =>
    s.sparesKeys schema && match s.onSchema schema with
      | .ok schema' => sparesAll rest schema'
      | .error _ => true

theorem runAll_soundOn (hRun : runSchema statements db.schema = .ok schema)
    (hSpares : sparesAll statements db.schema = true)
    (hUnseen : ∀ s ∈ statements, s.AddsUnseen keep) (h : SoundOn keep db) :
    SoundOn keep ⟨schema, runRows statements db.rows⟩ := by
  induction statements generalizing db with
  | nil =>
    cases hRun
    exact h
  | cons s rest ih =>
    unfold runSchema at hRun
    rw [List.foldlM_cons] at hRun
    obtain ⟨hFirst, hRest⟩ := Bool.and_eq_true_iff.mp hSpares
    rcases hSchema : s.onSchema db.schema with e | schema'
    · rw [hSchema] at hRun
      cases hRun
    · rw [hSchema] at hRun hRest
      have hOne := run_soundOn h hSchema hFirst (hUnseen s List.mem_cons_self)
      exact @ih ⟨schema', s.onRows db.rows⟩ hRun hRest
        (fun s hs => hUnseen s (List.mem_cons_of_mem _ hs)) hOne

/-- A parent's rows are copied to a table that then takes its name. -/
theorem rebuild_soundOn (h : SoundOn keep db) {after : Schema} {old new : String}
    {columns : List String}
    (hTables : ∀ t ∈ after.tables, t.foreignKeys ≠ [] →
      t ∈ db.schema.tables ∧ t.name ≠ old ∧ t.name ≠ new)
    (hParents : ∀ t ∈ after.tables, ∀ fk ∈ t.foreignKeys,
      fk.parent ≠ new ∧ (fk.parent = old → fk.key ∈ columns)) {rows : Rows}
    (hRows : ∀ name, rows name = if name = old then (db.rows old).map (project columns)
      else if name = new then [] else db.rows name) :
    SoundOn keep ⟨after, rows⟩ := by
  intro t ht fk hfk row hRow hKeep
  obtain ⟨hIn, hOld, hNew⟩ := hTables t ht (List.ne_nil_of_mem hfk)
  obtain ⟨hParentNew, hKey⟩ := hParents t ht fk hfk
  replace hRow : row ∈ rows t.name := hRow
  rw [hRows, if_neg hOld, if_neg hNew] at hRow
  rcases h t hIn fk hfk row hRow hKeep with hNull | ⟨parent, hParent, hEq⟩
  · exact Or.inl hNull
  · refine Or.inr ?_
    show ∃ parent ∈ rows fk.parent, _
    rw [hRows]
    by_cases hName : fk.parent = old
    · rw [if_pos hName]
      refine ⟨project columns parent, List.mem_map_of_mem (hName ▸ hParent), ?_⟩
      rw [← hEq]
      exact if_pos (hKey hName)
    · rw [if_neg hName, if_neg hParentNew]
      exact ⟨parent, hParent, hEq⟩

end Ddl
