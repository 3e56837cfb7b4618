import Oxiproxy.Foundation.Sqlite

/-!
# The migration to direct proxies

The tables of proxies and of daily traffic are made anew with other columns, and
their rows, indexes, triggers and sequences are carried over.
-/

namespace Oxiproxy.Controller.DirectProxyMigration

open Sqlite

/-! ## The tables -/

def required (name : String) (affinity : Affinity) : Column := ⟨name, affinity, true, .null, none⟩

def nullable (name : String) (affinity : Affinity) : Column := ⟨name, affinity, false, .null, none⟩

def withDefault (value : Value) (c : Column) : Column := { c with default := value }

/-- `REFERENCES parent(id) ON DELETE CASCADE` -/
def references (parent : String) (c : Column) : Column := { c with parent := some parent }

/-- The columns of a proxy, by the types of its id, its times and its client. -/
def proxyColumns (id : Column) (time : Affinity) (client : Column) : List Column :=
  [id, required "name" .text, required "proxy_type" .text, required "local_ip" .text,
    required "local_port" .integer, required "remote_port" .integer, required "enabled" .numeric,
    withDefault (.int 0) (required "total_bytes_sent" .integer),
    withDefault (.int 0) (required "total_bytes_received" .integer),
    required "created_at" time, required "updated_at" time, client,
    nullable "node_id" .integer, nullable "group_id" .text,
    withDefault (.text "") (required "domain" .text)]

def dailyColumns (id : Column) (time : Affinity) (client : Column) : List Column :=
  [id, references "proxy" (required "proxy_id" .integer), client,
    withDefault (.int 0) (required "bytes_sent" .integer),
    withDefault (.int 0) (required "bytes_received" .integer),
    required "date" .text, required "created_at" time, required "updated_at" time]

/-- `proxy`, as the earlier migrations make it -/
def earlierProxy : Definition where
  columns := proxyColumns (required "id" .integer) .text
    (references "client" (required "client_id" .text))
  autoincrement := true
  check _ := true

/-- `traffic_daily`, as the earlier migrations make it -/
def earlierDaily : Definition where
  columns := dailyColumns (required "id" .integer) .text
    (references "client" (required "client_id" .integer))
  autoincrement := true
  check _ := true

def directColumns : List Column :=
  [references "user" (nullable "user_id" .integer),
    withDefault (.text "") (required "upstream_url" .text)]

/-- A proxy has a client, or an upstream, an owner and a node. -/
def directCheck (value : String → Value) : Bool :=
  (value "upstream_url" = .text "" && value "client_id" ≠ .null) ||
  (value "upstream_url" ≠ .text "" && value "client_id" = .null && value "user_id" ≠ .null &&
    value "node_id" ≠ .null &&
    (value "proxy_type" = .text "http" || value "proxy_type" = .text "https") &&
    value "group_id" = .null)

/-- `TEXT` or `TEXT NOT NULL`, and the like for another type -/
def clientColumn (direct : Bool) (affinity : Affinity) : Column :=
  references "client" (if direct then nullable "client_id" affinity
    else required "client_id" affinity)

def proxyDefinition (direct : Bool) : Definition where
  columns := proxyColumns (nullable "id" .integer) .numeric (clientColumn direct .text) ++
    if direct then directColumns else []
  autoincrement := true
  check := if direct then directCheck else fun _ ↦ true

def dailyDefinition (direct : Bool) : Definition where
  columns := dailyColumns (nullable "id" .integer) .numeric (clientColumn direct .integer)
  autoincrement := true
  check _ := true

/-- The condition of the triggers that keep routes apart. -/
def routeConflict (value : Row → String → Value) (rows : List Row) (new : Row) : Bool :=
  value new "enabled" = .int 1 && rows.any fun p ↦
    value p "id" ≠ value new "id" && value p "enabled" = .int 1 &&
    value p "node_id" = value new "node_id" && value p "remote_port" = value new "remote_port" &&
    (!(value new "proxy_type" = .text "http" || value new "proxy_type" = .text "https") ||
      value p "proxy_type" ≠ value new "proxy_type" || value p "domain" = value new "domain")

def schemaObjects : List SchemaObject :=
  [⟨"idx_proxy_client_id", "proxy", .index false ["client_id"], true⟩,
    ⟨"idx_proxy_remote_port", "proxy", .index false ["remote_port"], true⟩,
    ⟨"idx_traffic_daily_proxy_date", "traffic_daily", .index true ["proxy_id", "date"], true⟩,
    ⟨"idx_traffic_daily_client_date", "traffic_daily", .index false ["client_id", "date"], true⟩,
    ⟨"proxy_route_insert", "proxy", .trigger .insert routeConflict, true⟩,
    ⟨"proxy_route_update", "proxy", .trigger
      (.update ["node_id", "remote_port", "proxy_type", "domain", "enabled"]) routeConflict, true⟩]

/-! ## The migration -/

inductive DbErr
  | exec (e : String)
  | custom (message : String)
  deriving DecidableEq, Repr

def tables : List String := ["proxy", "traffic_daily"]

def selectObjects (db : Database) : List SchemaObject :=
  db.objects.filter fun o ↦ o.table ∈ tables && o.hasSql

def selectSequences (db : Database) : List (String × ℤ) :=
  (db.sequences.entries.map fun e ↦ (e.1, e.2)).filter fun sequence ↦ sequence.1 ∈ tables

def columns : List String :=
  ["id", "name", "proxy_type", "local_ip", "local_port", "remote_port", "enabled",
    "total_bytes_sent", "total_bytes_received", "created_at", "updated_at", "client_id",
    "node_id", "group_id", "domain"]

/-- The statements of the transaction; the first reads the sequences. -/
def rebuildStatements (direct : Bool) (objects : List SchemaObject)
    (sequences : List (String × ℤ)) : List Statement :=
  [.select,
    .createTempAs "direct_proxy_daily_backup" "traffic_daily",
    .dropTable "traffic_daily",
    .createTable "proxy_direct_new" (proxyDefinition direct),
    .insertSelect "proxy_direct_new" (.only columns) "proxy" (.only columns),
    .dropTable "proxy",
    .renameTable "proxy_direct_new" "proxy",
    .createTable "traffic_daily" (dailyDefinition direct),
    .insertSelect "traffic_daily" .all "direct_proxy_daily_backup" .all,
    .dropTable "direct_proxy_daily_backup"] ++
  objects.map .createObject ++
  sequences.map fun (name, value) ↦ .raiseSequence name value

/-- The tables are made anew; the call with the number `n` fails if `fault n` says so. -/
def rebuild (fault : ℕ → Option String) (n : ℕ) (direct : Bool) (db : Database) :
    Except DbErr Unit × Database :=
  match fault n with
  | some e => (.error (.exec e), db)
  | none =>
      let statements := rebuildStatements direct (selectObjects db) (selectSequences db)
      let (result, db) := transaction fault (n + 1) statements db
      (result.mapError .exec, db)

def up (fault : ℕ → Option String) (db : Database) : Except DbErr Unit × Database :=
  rebuild fault 0 true db

def refusal : DbErr := .custom "请先删除公网直连代理，再回滚数据库迁移"

def down (fault : ℕ → Option String) (db : Database) : Except DbErr Unit × Database :=
  match fault 0 with
  | some e => (.error (.exec e), db)
  | none =>
      match db.tables.lookup "proxy" with
      | none => (.error (.exec "no such table: proxy"), db)
      | some proxy =>
          if proxy.rows.any fun row ↦ proxy.value row "client_id" = .null then
            (.error refusal, db)
          else rebuild fault 1 false db

/-- Nothing fails for a reason of its own. -/
def noFault : ℕ → Option String := fun _ ↦ none

/-! ## Rows -/

def times : List String := ["created_at", "updated_at"]

/-- A text that starts with a year. -/
def IsDateTime (value : Value) : Prop :=
  ∃ year rest, value = .text (String.ofList (year ++ '-' :: rest)) ∧ year ≠ [] ∧
    ∀ c ∈ year, c.isDigit = true

theorem IsDateTime.numeric {value : Value} (h : IsDateTime value) :
    Affinity.numeric.apply value = value := by
  obtain ⟨year, rest, rfl, hne, hdigits⟩ := h
  obtain ⟨c, year, rfl⟩ := List.exists_cons_of_ne_nil hne
  have hc : c.isDigit = true := hdigits c List.mem_cons_self
  have hminus : c ≠ '-' := by
    rintro rfl
    exact absurd hc (by decide)
  have hplus : c ≠ '+' := by
    rintro rfl
    exact absurd hc (by decide)
  have hdigits : digits (c :: (year ++ '-' :: rest)) = none := by
    refine if_neg fun h ↦ ?_
    have hhyphen := List.all_eq_true.mp h.2 '-' (by simp)
    exact absurd hhyphen (by decide)
  have hliteral : integerLiteral (String.ofList (c :: year ++ '-' :: rest)) = none := by
    unfold integerLiteral
    rw [String.toList_ofList, List.cons_append]
    split
    · next hcons => exact absurd (List.cons.inj hcons).1 hminus
    · next hcons => exact absurd (List.cons.inj hcons).1 hplus
    · exact hdigits
  simp only [Affinity.apply, hliteral]

/-- A row whose times are dates and that has a client. -/
structure Ordinary (d : Definition) (row : Row) : Prop where
  time : ∀ e ∈ d.columns.zip row, e.1.name ∈ times → IsDateTime e.2
  client : ∀ e ∈ d.columns.zip row, e.1.name = "client_id" → e.2 ≠ .null

/-- A new column takes what an old one holds in such rows. -/
def Carries (c c' : Column) : Prop :=
  c'.name = c.name ∧ c'.parent = c.parent ∧
    (c'.notNull = true → c.notNull = true ∨ c.name = "client_id") ∧
    (c'.affinity = c.affinity ∨ c.name ∈ times ∧ c'.affinity = .numeric)

instance : DecidableRel Carries := fun _ _ ↦ inferInstanceAs (Decidable (_ ∧ _))

section Rows

variable {v : View} {d d' : Definition} {row : Row} {columns columns' : List Column}

theorem Carries.acceptsValue {c c' : Column} {value : Value} (h : Carries c c')
    (haccepts : v.AcceptsValue c value) (htime : c.name ∈ times → IsDateTime value)
    (hclient : c.name = "client_id" → value ≠ .null) : v.AcceptsValue c' value := by
  obtain ⟨-, hparent, hnull, haffinity⟩ := h
  refine ⟨?_, fun hnot ↦ ?_, fun parent hc ↦ haccepts.parent parent (hparent ▸ hc)⟩
  · rcases haffinity with haffinity | ⟨hmem, haffinity⟩
    · rw [haffinity]
      exact haccepts.stored
    · rw [haffinity]
      exact (htime hmem).numeric
  · exact (hnull hnot).elim haccepts.notNull hclient

theorem exists_mem_zip {c : Column} (hc : c ∈ columns) (hlength : row.length = columns.length) :
    ∃ value, (c, value) ∈ columns.zip row := by
  obtain ⟨i, hi, rfl⟩ := List.mem_iff_getElem.mp hc
  refine ⟨row[i], List.mem_iff_getElem.mpr ⟨i, ?_, List.getElem_zip⟩⟩
  rw [List.length_zip]
  omega

/-- The row of a proxy in the new table. -/
def carry (direct : Bool) (row : Row) : Row :=
  row.take 15 ++ if direct then [.null, .text ""] else []

/-- The columns of proxies that stay. -/
def keptColumns (direct : Bool) : List Column :=
  proxyColumns (nullable "id" .integer) .numeric (clientColumn direct .text)

/-- A table of proxies whose first columns are carried over. -/
structure ProxySource (direct : Bool) (d : Definition) : Prop where
  nodup : d.names.Nodup
  columns : ∃ kept extra, d.columns = kept ++ extra ∧
    List.Forall₂ Carries kept (keptColumns direct) ∧ kept.map (·.name) = DirectProxyMigration.columns

variable {direct : Bool}

theorem length_keptColumns (direct : Bool) : (keptColumns direct).length = 15 := rfl

theorem names_nodup (direct : Bool) :
    (proxyDefinition direct).names.Nodup ∧ (dailyDefinition direct).names.Nodup := by
  cases direct <;> decide

theorem ProxySource.le_length (h : ProxySource direct d) (hlength : row.length = d.columns.length) :
    15 ≤ row.length := by
  obtain ⟨kept, extra, hcolumns, hcarries, -⟩ := h.columns
  rw [hlength, hcolumns, List.length_append, hcarries.length_eq, length_keptColumns]
  exact Nat.le_add_right 15 _

/-- The values of the new row come from columns of the old one. -/
theorem ProxySource.exists_carries (h : ProxySource direct d)
    (hlength : row.length = d.columns.length) {e : Column × Value}
    (he : e ∈ (keptColumns direct).zip (row.take 15)) :
    ∃ c, Carries c e.1 ∧ (c, e.2) ∈ d.columns.zip row := by
  have hle := h.le_length hlength
  obtain ⟨kept, extra, hcolumns, hcarries, -⟩ := h.columns
  obtain ⟨c, hc, hmem⟩ := exists_mem_zip_of_forall₂ hcarries he
  refine ⟨c, hc, ?_⟩
  have htake : kept.length = (row.take 15).length := by
    rw [hcarries.length_eq, length_keptColumns, List.length_take, Nat.min_eq_left hle]
  rw [hcolumns, ← List.take_append_drop 15 row, List.zip_append htake]
  exact List.mem_append_left _ hmem

theorem zip_carry (hle : 15 ≤ row.length) :
    (proxyDefinition direct).columns.zip (carry direct row) =
      (keptColumns direct).zip (row.take 15) ++
        if direct then directColumns.zip [.null, .text ""] else [] := by
  have htake : (keptColumns direct).length = (row.take 15).length := by
    rw [length_keptColumns, List.length_take, Nat.min_eq_left hle]
  unfold carry
  refine (List.zip_append htake).trans ?_
  cases direct <;> rfl

theorem key_carry (direct : Bool) (hle : 15 ≤ row.length) : key (carry direct row) = key row := by
  cases row with
  | nil => cases hle
  | cons value row => rfl

theorem ordinary_carry (hd : ProxySource direct d) (hlength : row.length = d.columns.length)
    (h : Ordinary d row) : Ordinary (proxyDefinition direct) (carry direct row) := by
  have hextra : ∀ e ∈ (if direct then directColumns.zip [Value.null, .text ""] else []),
      e.1.name ∉ times ∧ e.1.name ≠ "client_id" := by
    cases direct <;> decide
  refine ⟨fun e he hname ↦ ?_, fun e he hname ↦ ?_⟩ <;>
    rw [zip_carry (hd.le_length hlength)] at he <;>
    rcases List.mem_append.mp he with he | he
  · obtain ⟨c, hc, hmem⟩ := hd.exists_carries hlength he
    exact h.time (c, e.2) hmem (hc.1 ▸ hname)
  · exact absurd hname (hextra e he).1
  · obtain ⟨c, hc, hmem⟩ := hd.exists_carries hlength he
    exact h.client (c, e.2) hmem (hc.1 ▸ hname)
  · exact absurd hname (hextra e he).2

/-- A proxy with a client and without an upstream passes the check. -/
theorem check_carry (hd : ProxySource direct d) (hlength : row.length = d.columns.length)
    (h : Ordinary d row) :
    (proxyDefinition direct).check ((proxyDefinition direct).value (carry direct row)) = true := by
  cases direct with
  | false => rfl
  | true =>
      have hle := hd.le_length hlength
      have htake : (row.take 15).length = (keptColumns true).length := by
        rw [length_keptColumns, List.length_take, Nat.min_eq_left hle]
      obtain ⟨client, hmem⟩ := exists_mem_zip
        (show clientColumn true .text ∈ keptColumns true by decide) htake
      obtain ⟨c, hc, hold⟩ := hd.exists_carries hlength hmem
      have hne : client ≠ .null := h.client _ hold hc.1.symm
      have hclient : (proxyDefinition true).value (carry true row) "client_id" = client := by
        refine value_of_mem_zip (names_nodup true).1 (c := clientColumn true .text) ?_
        rw [zip_carry hle]
        exact List.mem_append_left _ hmem
      have hupstream : (proxyDefinition true).value (carry true row) "upstream_url" = .text "" := by
        refine value_of_mem_zip (names_nodup true).1
          (c := withDefault (.text "") (required "upstream_url" .text)) ?_
        rw [zip_carry hle]
        exact List.mem_append_right _ (by decide)
      change directCheck _ = true
      simp [directCheck, hclient, hupstream, hne]

theorem accepts_carry (hd : ProxySource direct d) (haccepts : v.Accepts d row)
    (h : Ordinary d row) : v.Accepts (proxyDefinition direct) (carry direct row) := by
  have hle := hd.le_length haccepts.length
  refine ⟨?_, fun e he ↦ ?_, check_carry hd haccepts.length h, ?_⟩
  · unfold carry
    rw [List.length_append, List.length_take, Nat.min_eq_left hle]
    cases direct <;> rfl
  · rw [zip_carry hle] at he
    rcases List.mem_append.mp he with he | he
    · obtain ⟨c, hc, hmem⟩ := hd.exists_carries haccepts.length he
      exact hc.acceptsValue (haccepts.values (c, e.2) hmem) (h.time (c, e.2) hmem)
        (h.client (c, e.2) hmem)
    · cases direct with
      | false => cases he
      | true =>
          rcases List.mem_cons.mp he with rfl | he
          · exact ⟨rfl, nofun, fun parent _ ↦ .inl rfl⟩
          · rw [List.mem_singleton.mp he]
            exact ⟨rfl, nofun, nofun⟩
  · rw [key_carry direct hle]
    exact haccepts.key

/-- A table of daily traffic that is carried over by position. -/
def DailySource (direct : Bool) (d : Definition) : Prop :=
  List.Forall₂ Carries d.columns (dailyDefinition direct).columns

theorem accepts_daily (hd : DailySource direct d) (haccepts : v.Accepts d row)
    (h : Ordinary d row) : v.Accepts (dailyDefinition direct) row := by
  refine ⟨haccepts.length.trans hd.length_eq, fun e he ↦ ?_, rfl, haccepts.key⟩
  obtain ⟨c, hc, hmem⟩ := exists_mem_zip_of_forall₂ hd he
  exact hc.acceptsValue (haccepts.values (c, e.2) hmem) (h.time (c, e.2) hmem)
    (h.client (c, e.2) hmem)

theorem ordinary_daily (hd : DailySource direct d) (h : Ordinary d row) :
    Ordinary (dailyDefinition direct) row := by
  refine ⟨fun e he hname ↦ ?_, fun e he hname ↦ ?_⟩ <;>
    obtain ⟨c, hc, hmem⟩ := exists_mem_zip_of_forall₂ hd he
  · exact h.time (c, e.2) hmem (hc.1 ▸ hname)
  · exact h.client (c, e.2) hmem (hc.1 ▸ hname)

theorem DailySource.names (hd : DailySource direct d) : d.names = (dailyDefinition direct).names := by
  have hnames : List.Forall₂ Eq (d.columns.map (·.name))
      ((dailyDefinition direct).columns.map (·.name)) := by
    rw [List.forall₂_map_left_iff, List.forall₂_map_right_iff]
    exact hd.imp fun c c' hc ↦ hc.1.symm
  exact List.forall₂_eq_eq_eq ▸ hnames

end Rows

/-! ## The databases that are migrated -/

/-- A table whose rows were all inserted into it. -/
structure Holds (v : View) (name : String) (d : Definition) : Prop where
  table : v.tables name = some ⟨d, v.rows name⟩
  accepts : ∀ row ∈ v.rows name, v.Accepts d row
  nodup : ((v.rows name).map key).Nodup
  ordinary : ∀ row ∈ v.rows name, Ordinary d row

def workTables : List String := ["proxy_direct_new", "direct_proxy_daily_backup"]

/-- A database with the two tables, their indexes and triggers, and without leftovers
of the migration. -/
structure Migratable (v : View) (p d : Definition) : Prop where
  proxy : Holds v "proxy" p
  daily : Holds v "traffic_daily" d
  fresh : ∀ name ∈ workTables, v.tables name = none ∧ v.sequences name = none
  unreferenced : ∀ name ∈ "traffic_daily" :: workTables, v.Unreferenced name
  /-- Of all tables only the daily traffic refers to proxies. -/
  referenced : ∀ name t, v.tables name = some t → ∀ c ∈ t.columns,
    c.parent = some "proxy" → name = "traffic_daily"
  objects : ∀ o, o ∈ v.objects ∧ o.table ∈ tables ↔ o ∈ schemaObjects
  objectNames : (v.objects.map (·.name)).Nodup
  objectTables : ∀ o ∈ v.objects, o.table ∉ workTables
  unique : (⟨d, v.rows "traffic_daily"⟩ : Table).isUnique ["proxy_id", "date"] = true

section Rebuild

variable {v : View} {p d : Definition} {direct : Bool}

/-- The copy of the daily traffic, and the table without it. -/
def withoutDaily (v : View) (d : Definition) : View where
  tables := Function.update (Function.update v.tables "direct_proxy_daily_backup"
    (some ⟨d.plain, v.rows "traffic_daily"⟩)) "traffic_daily" none
  sequences := Function.update v.sequences "traffic_daily" none
  objects := v.objects.filter fun o ↦ o.table ≠ "traffic_daily"

theorem does_backup (h : Migratable v p d) :
    Does [.select, .createTempAs "direct_proxy_daily_backup" "traffic_daily",
      .dropTable "traffic_daily"] v (withoutDaily v d) := by
  refine ⟨v, does_select v, _, does_createTempAs (h.fresh _ (by decide)).1 h.daily.table, _,
    does_dropTable (t := ⟨d, v.rows "traffic_daily"⟩) ?_ ?_, rfl⟩
  · have hne : "traffic_daily" ≠ "direct_proxy_daily_backup" := by decide
    dsimp only
    rw [Function.update_of_ne hne]
    exact h.daily.table
  · refine View.Unreferenced.update (h.unreferenced "traffic_daily" (by decide)) ?_
    rintro t ht c hc
    cases ht
    obtain ⟨c', -, rfl⟩ := List.mem_map.mp hc
    exact nofun

/-- The values that are selected from a proxy are those that are carried. -/
theorem fill_carry {row : Row} (hp : ProxySource direct p) (hlength : row.length = p.columns.length) :
    (proxyDefinition direct).fill columns (columns.map (p.value row)) = carry direct row := by
  have hle := hp.le_length hlength
  obtain ⟨kept, extra, hcolumns, hcarries, hnames⟩ := hp.columns
  have htake : (row.take 15).length = kept.length := by
    rw [hcarries.length_eq, length_keptColumns, List.length_take, Nat.min_eq_left hle]
  have hnodup : (kept.map (·.name)).Nodup := by
    rw [hnames]
    decide
  have hselect : columns.map (p.value row) = row.take 15 := by
    have h := @map_value_append p (row.take 15) kept extra (row.drop 15) hcolumns hnodup htake
    rwa [List.take_append_drop, hnames] at h
  have hkept : columns = (keptColumns direct).map (·.name) := by cases direct <;> rfl
  rw [hselect, hkept, fill_append rfl (names_nodup direct).1 (htake.trans hcarries.length_eq)]
  unfold carry
  congr 1
  cases direct <;> rfl

/-- The new rows have the ids of the old ones. -/
theorem map_key_carry (hp : ProxySource direct p) {rows : List Row}
    (hlength : ∀ row ∈ rows, row.length = p.columns.length) :
    (rows.map (carry direct)).map key = rows.map key := by
  rw [List.map_map]
  exact List.map_congr_left fun row hrow ↦ key_carry direct (hp.le_length (hlength row hrow))

/-- The table of proxies is made anew. -/
theorem does_proxies {u : View} (rows : List Row) (hp : ProxySource direct p)
    (htable : u.tables "proxy" = some ⟨p, rows⟩) (hnew : u.tables "proxy_direct_new" = none)
    (hsequence : u.sequences "proxy_direct_new" = none)
    (hobjects : ∀ o ∈ u.objects, o.table ≠ "proxy_direct_new")
    (hproxy : u.Unreferenced "proxy") (hfree : u.Unreferenced "proxy_direct_new")
    (hlength : ∀ row ∈ rows, row.length = p.columns.length)
    (haccepts : ∀ row ∈ rows, u.Accepts (proxyDefinition direct) (carry direct row))
    (hnodup : (rows.map key).Nodup) :
    Does [.createTable "proxy_direct_new" (proxyDefinition direct),
      .insertSelect "proxy_direct_new" (.only columns) "proxy" (.only columns),
      .dropTable "proxy", .renameTable "proxy_direct_new" "proxy"] u {
        tables := Function.update u.tables "proxy"
          (some ⟨proxyDefinition direct, rows.map (carry direct)⟩)
        sequences := Function.update u.sequences "proxy"
          ((rows.map (carry direct)).foldl raise (some 0))
        objects := u.objects.filter fun o ↦ o.table ≠ "proxy" } := by
  have hne : "proxy" ≠ "proxy_direct_new" := by decide
  have hparents : ∀ c ∈ (proxyDefinition direct).columns,
      c.parent ≠ some "proxy_direct_new" ∧ c.parent ≠ some "proxy" := by
    cases direct <;> decide
  refine ⟨_, does_createTable hnew, _, does_insertSelect (t := ⟨proxyDefinition direct, []⟩)
    (s := ⟨p, rows⟩) ?_ ?_ rfl rfl
    (List.map_congr_left fun row hrow ↦ fill_carry hp (hlength row hrow)) hobjects
    (fun c hc ↦ (hparents c hc).1) ?_ ?_, _, does_dropTable (t := ⟨p, rows⟩) ?_ ?_, _,
    does_renameTable (t := ⟨proxyDefinition direct, rows.map (carry direct)⟩) ?_ ?_ ?_ ?_ ?_, ?_⟩
  · dsimp only
    rw [Function.update_self]
  · dsimp only
    rw [Function.update_of_ne hne]
    exact htable
  · intro row' hrow'
    obtain ⟨row, hrow, rfl⟩ := List.mem_map.mp hrow'
    refine (haccepts row hrow).congr fun c hc parent hparent ↦ ?_
    have hother : parent ≠ "proxy_direct_new" := fun h ↦ (hparents c hc).1 (h ▸ hparent)
    dsimp only [View.rows]
    rw [Function.update_of_ne hother]
  · rwa [List.nil_append, map_key_carry hp hlength]
  · dsimp only [View.insertRows, View.startSequence]
    rw [Function.update_of_ne hne, Function.update_of_ne hne]
    exact htable
  · refine View.Unreferenced.update (View.Unreferenced.update hproxy ?_) ?_ <;>
    · rintro t ht c hc
      cases ht
      exact (hparents c hc).2
  · dsimp only [View.insertRows, View.startSequence]
    rw [Function.update_of_ne hne.symm, Function.update_self, List.nil_append]
  · dsimp only
    rw [Function.update_self]
  · dsimp only
    rw [Function.update_self]
  · refine View.Unreferenced.update (View.Unreferenced.update (View.Unreferenced.update hfree ?_) ?_)
      nofun <;>
    · rintro t ht c hc
      cases ht
      exact (hparents c hc).1
  · intro o ho
    exact hobjects o (List.mem_filter.mp ho).1
  · -- the table has its new name, and the work table is gone
    refine View.ext (funext fun a ↦ ?_) (funext fun a ↦ ?_) rfl
    · dsimp only [View.insertRows, View.startSequence]
      by_cases hnew' : a = "proxy_direct_new"
      · simp [hnew', hnew]
      · simp only [Function.update_apply, hnew', if_false]
        split_ifs <;> rfl
    · dsimp only [View.insertRows, View.startSequence]
      by_cases hnew' : a = "proxy_direct_new"
      · simp [hnew', hsequence]
      · simp only [Function.update_apply, hnew', hne.symm, hsequence, if_false]
        split_ifs <;> rfl

/-- The daily traffic is put back into a new table. -/
theorem does_daily {w : View} (rows : List Row) (hd : DailySource direct d)
    (hbackup : w.tables "direct_proxy_daily_backup" = some ⟨d.plain, rows⟩)
    (htable : w.tables "traffic_daily" = none) (hsequence : w.sequences "traffic_daily" = none)
    (hbackupSequence : w.sequences "direct_proxy_daily_backup" = none)
    (hobjects : ∀ o ∈ w.objects, o.table ∉ ["traffic_daily", "direct_proxy_daily_backup"])
    (hfree : w.Unreferenced "direct_proxy_daily_backup")
    (haccepts : ∀ row ∈ rows, w.Accepts (dailyDefinition direct) row)
    (hnodup : (rows.map key).Nodup) :
    Does [.createTable "traffic_daily" (dailyDefinition direct),
      .insertSelect "traffic_daily" .all "direct_proxy_daily_backup" .all,
      .dropTable "direct_proxy_daily_backup"] w {
        tables := Function.update (Function.update w.tables "traffic_daily"
          (some ⟨dailyDefinition direct, rows⟩)) "direct_proxy_daily_backup" none
        sequences := Function.update w.sequences "traffic_daily" (rows.foldl raise (some 0))
        objects := w.objects } := by
  have hne : "direct_proxy_daily_backup" ≠ "traffic_daily" := by decide
  have hparents : ∀ c ∈ (dailyDefinition direct).columns,
      c.parent ≠ some "direct_proxy_daily_backup" ∧ c.parent ≠ some "traffic_daily" := by
    cases direct <;> decide
  have hnames : d.plain.names = (dailyDefinition direct).names := by
    rw [← hd.names, Definition.names, Definition.plain, List.map_map]
    rfl
  have hlength : d.plain.columns.length = (dailyDefinition direct).columns.length := by
    rw [← hd.length_eq, Definition.plain, List.length_map]
  have hcopy : ∀ row ∈ rows, (dailyDefinition direct).fill (dailyDefinition direct).names
      (d.plain.names.map (d.plain.value row)) = row := by
    intro row hrow
    have hrow := (haccepts row hrow).length
    rw [map_value_names (hnames ▸ (names_nodup direct).2) (hrow.trans hlength.symm),
      fill_names (names_nodup direct).2 hrow]
  refine ⟨_, does_createTable htable, _, does_insertSelect (t := ⟨dailyDefinition direct, []⟩)
    (s := ⟨d.plain, rows⟩) ?_ ?_ rfl ?_
    ((List.map_congr_left hcopy).trans (List.map_id rows)) ?_ (fun c hc ↦ (hparents c hc).2) ?_ ?_,
    _, does_dropTable (t := ⟨d.plain, rows⟩) ?_ ?_, ?_⟩
  · dsimp only
    rw [Function.update_self]
  · dsimp only
    rw [Function.update_of_ne hne]
    exact hbackup
  · exact congrArg List.length hnames.symm
  · intro o ho htable
    exact hobjects o ho (htable ▸ List.mem_cons_self)
  · intro row hrow
    refine (haccepts row hrow).congr fun c hc parent hparent ↦ ?_
    have hother : parent ≠ "traffic_daily" := fun h ↦ (hparents c hc).2 (h ▸ hparent)
    dsimp only [View.rows]
    rw [Function.update_of_ne hother]
  · rwa [List.nil_append]
  · dsimp only [View.insertRows, View.startSequence]
    rw [Function.update_of_ne hne, Function.update_of_ne hne]
    exact hbackup
  · refine View.Unreferenced.update (View.Unreferenced.update hfree ?_) ?_ <;>
    · rintro t ht c hc
      cases ht
      exact (hparents c hc).1
  · refine View.ext ?_ (funext fun a ↦ ?_) (List.filter_eq_self.mpr fun o ho ↦ ?_)
    · dsimp only [View.insertRows, View.startSequence]
      rw [Function.update_idem, List.nil_append]
    · dsimp only [View.insertRows, View.startSequence]
      rw [hsequence, Option.getD_none, Function.update_self, Function.update_idem]
      by_cases hbackup' : a = "direct_proxy_daily_backup"
      · rw [hbackup', Function.update_self, Function.update_of_ne hne, hbackupSequence]
      · rw [Function.update_of_ne hbackup']
    · refine decide_eq_true fun htable ↦ hobjects o ho ?_
      rw [htable]
      decide

/-- The two tables with their new columns, without indexes and triggers. -/
def carried (direct : Bool) (v : View) : View where
  tables := Function.update (Function.update v.tables "proxy"
    (some ⟨proxyDefinition direct, (v.rows "proxy").map (carry direct)⟩)) "traffic_daily"
    (some ⟨dailyDefinition direct, v.rows "traffic_daily"⟩)
  sequences := Function.update (Function.update v.sequences "proxy"
    (((v.rows "proxy").map (carry direct)).foldl raise (some 0))) "traffic_daily"
    ((v.rows "traffic_daily").foldl raise (some 0))
  objects := v.objects.filter fun o ↦ o.table ∉ tables

theorem proxy_parents {c : Column} (hc : c ∈ (proxyDefinition direct).columns) {parent : String}
    (h : c.parent = some parent) : parent = "client" ∨ parent = "user" := by
  have hall : ∀ c ∈ (proxyDefinition direct).columns,
      c.parent = none ∨ c.parent = some "client" ∨ c.parent = some "user" := by
    cases direct <;> decide
  rcases hall c hc with hnone | hclient | huser
  · cases hnone.symm.trans h
  · exact .inl (Option.some.inj (h.symm.trans hclient))
  · exact .inr (Option.some.inj (h.symm.trans huser))

theorem daily_parents {c : Column} (hc : c ∈ (dailyDefinition direct).columns) {parent : String}
    (h : c.parent = some parent) : parent = "proxy" ∨ parent = "client" := by
  have hall : ∀ c ∈ (dailyDefinition direct).columns,
      c.parent = none ∨ c.parent = some "proxy" ∨ c.parent = some "client" := by
    cases direct <;> decide
  rcases hall c hc with hnone | hproxy | hclient
  · cases hnone.symm.trans h
  · exact .inl (Option.some.inj (h.symm.trans hproxy))
  · exact .inr (Option.some.inj (h.symm.trans hclient))

theorem rows_withoutDaily {name : String} (h : name ≠ "traffic_daily")
    (h' : name ≠ "direct_proxy_daily_backup") : (withoutDaily v d).rows name = v.rows name := by
  dsimp only [View.rows, withoutDaily]
  rw [Function.update_of_ne h, Function.update_of_ne h']

theorem tables_carried_proxy (direct : Bool) (v : View) : (carried direct v).tables "proxy" =
    some ⟨proxyDefinition direct, (v.rows "proxy").map (carry direct)⟩ := by
  dsimp only [carried]
  rw [Function.update_of_ne (by decide), Function.update_self]

theorem tables_carried_daily (direct : Bool) (v : View) : (carried direct v).tables "traffic_daily" =
    some ⟨dailyDefinition direct, v.rows "traffic_daily"⟩ := by
  dsimp only [carried]
  rw [Function.update_self]

theorem tables_carried_of_notMem (direct : Bool) (v : View) {name : String} (h : name ∉ tables) :
    (carried direct v).tables name = v.tables name := by
  rw [tables, List.mem_cons, List.mem_singleton, not_or] at h
  dsimp only [carried]
  rw [Function.update_of_ne h.2, Function.update_of_ne h.1]

/-- The rows are carried over. -/
theorem does_carried (h : Migratable v p d) (hp : ProxySource direct p) (hd : DailySource direct d) :
    Does (rebuildStatements direct [] []) v (carried direct v) := by
  have hdaily : "proxy" ≠ "traffic_daily" := by decide
  have hbackup : "proxy" ≠ "direct_proxy_daily_backup" := by decide
  have hnew : "proxy_direct_new" ≠ "traffic_daily" := by decide
  have hnew' : "proxy_direct_new" ≠ "direct_proxy_daily_backup" := by decide
  have hclient : "client" ≠ "traffic_daily" ∧ "client" ≠ "direct_proxy_daily_backup" := by decide
  refine (does_backup h).append ((does_proxies (v.rows "proxy") hp ?_ ?_ ?_ ?_ ?_ ?_ ?_ ?_
    ?_).append ?_)
  · dsimp only [withoutDaily]
    rw [Function.update_of_ne hdaily, Function.update_of_ne hbackup]
    exact h.proxy.table
  · dsimp only [withoutDaily]
    rw [Function.update_of_ne hnew, Function.update_of_ne hnew']
    exact (h.fresh _ (by decide)).1
  · dsimp only [withoutDaily]
    rw [Function.update_of_ne hnew]
    exact (h.fresh _ (by decide)).2
  · intro o ho htable
    refine h.objectTables o (List.mem_filter.mp ho).1 ?_
    rw [htable]
    decide
  · -- only the daily traffic refers to proxies, and it is gone
    intro child t ht c hc hparent
    dsimp only [withoutDaily] at ht
    rw [Function.update_apply, Function.update_apply] at ht
    split_ifs at ht with hchild hchild'
    · cases ht
      obtain ⟨c', -, rfl⟩ := List.mem_map.mp hc
      cases hparent
    · exact hchild (h.referenced child t ht c hc hparent)
  · refine View.Unreferenced.update (View.Unreferenced.update
      (h.unreferenced "proxy_direct_new" (by decide)) ?_) nofun
    rintro t ht c hc
    cases ht
    obtain ⟨c', -, rfl⟩ := List.mem_map.mp hc
    exact nofun
  · exact fun row hrow ↦ (h.proxy.accepts row hrow).length
  · intro row hrow
    refine (accepts_carry hp (h.proxy.accepts row hrow) (h.proxy.ordinary row hrow)).congr
      fun c hc parent hparent ↦ congrArg _ ?_
    rcases proxy_parents hc hparent with rfl | rfl <;>
      exact rows_withoutDaily (by decide) (by decide)
  · exact h.proxy.nodup
  · have hbackup' : "direct_proxy_daily_backup" ≠ "traffic_daily" := by decide
    have hview : carried direct v = {
        tables := Function.update (Function.update (Function.update (withoutDaily v d).tables "proxy"
          (some ⟨proxyDefinition direct, (v.rows "proxy").map (carry direct)⟩)) "traffic_daily"
          (some ⟨dailyDefinition direct, v.rows "traffic_daily"⟩)) "direct_proxy_daily_backup" none
        sequences := Function.update (Function.update (withoutDaily v d).sequences "proxy"
          (((v.rows "proxy").map (carry direct)).foldl raise (some 0))) "traffic_daily"
          ((v.rows "traffic_daily").foldl raise (some 0))
        objects := (withoutDaily v d).objects.filter fun o ↦ o.table ≠ "proxy" } := by
      refine View.ext (funext fun a ↦ ?_) (funext fun a ↦ ?_) ?_
      · dsimp only [carried, withoutDaily]
        by_cases ha : a = "direct_proxy_daily_backup"
        · subst ha
          rw [Function.update_of_ne hbackup', Function.update_of_ne hbackup.symm,
            Function.update_self]
          exact (h.fresh _ (by decide)).1
        · simp only [Function.update_apply, ha, if_false]
          split_ifs <;> rfl
      · dsimp only [carried, withoutDaily]
        simp only [Function.update_apply]
        split_ifs <;> rfl
      · dsimp only [carried, withoutDaily]
        rw [List.filter_filter]
        refine List.filter_congr fun o _ ↦ ?_
        simp [tables]
    rw [hview]
    refine does_daily (v.rows "traffic_daily") hd ?_ ?_ ?_ ?_ ?_ ?_ ?_ h.daily.nodup
    · dsimp only [withoutDaily]
      rw [Function.update_of_ne hbackup.symm, Function.update_of_ne hbackup', Function.update_self]
    · dsimp only [withoutDaily]
      rw [Function.update_of_ne hdaily.symm, Function.update_self]
    · dsimp only [withoutDaily]
      rw [Function.update_of_ne hdaily.symm, Function.update_self]
    · dsimp only [withoutDaily]
      rw [Function.update_of_ne hbackup.symm, Function.update_of_ne hbackup']
      exact (h.fresh _ (by decide)).2
    · intro o ho htable
      obtain ⟨ho, -⟩ := List.mem_filter.mp ho
      obtain ⟨ho, hother⟩ := List.mem_filter.mp ho
      rcases List.mem_cons.mp htable with hdaily' | hwork
      · exact of_decide_eq_true hother hdaily'
      · exact h.objectTables o ho (List.mem_cons_of_mem _ hwork)
    · refine View.Unreferenced.update (View.Unreferenced.update (View.Unreferenced.update
        (h.unreferenced "direct_proxy_daily_backup" (by decide)) ?_) nofun) ?_
      · rintro t ht c hc
        cases ht
        obtain ⟨c', -, rfl⟩ := List.mem_map.mp hc
        exact nofun
      · rintro t ht c hc hparent
        cases ht
        rcases proxy_parents hc hparent with h | h <;> exact absurd h (by decide)
    · intro row hrow
      refine (accepts_daily hd (h.daily.accepts row hrow) (h.daily.ordinary row hrow)).congr
        fun c hc parent hparent ↦ ?_
      rcases daily_parents hc hparent with rfl | rfl
      · dsimp only [View.rows]
        rw [Function.update_self, Option.map_some, Option.getD_some]
        exact map_key_carry hp fun row hrow ↦ (h.proxy.accepts row hrow).length
      · dsimp only [View.rows]
        rw [Function.update_of_ne (by decide)]
        exact congrArg _ (rows_withoutDaily (by decide) (by decide))

theorem isUnique_congr {d d' : Definition} (h : d.names = d'.names) (rows : List Row)
    (columns : List String) :
    (⟨d, rows⟩ : Table).isUnique columns = (⟨d', rows⟩ : Table).isUnique columns := by
  unfold Table.isUnique Definition.clash Definition.value
  rw [h]

/-- The indexes and triggers of the two tables. -/
def ownObjects (v : View) : List SchemaObject :=
  v.objects.filter fun o ↦ o.table ∈ tables && o.hasSql

theorem mem_ownObjects (h : Migratable v p d) (o : SchemaObject) :
    o ∈ ownObjects v ↔ o ∈ schemaObjects := by
  unfold ownObjects
  rw [List.mem_filter, Bool.and_eq_true, decide_eq_true_eq, ← and_assoc, h.objects]
  refine and_iff_left_of_imp fun ho ↦ ?_
  have hall : schemaObjects.all (·.hasSql) = true := rfl
  exact List.all_eq_true.mp hall o ho

/-- Other objects stay, and the names of all are still distinct. -/
theorem names_carried (h : Migratable v p d) (direct : Bool) :
    (((carried direct v).objects ++ ownObjects v).map (·.name)).Nodup := by
  have hsub {q : SchemaObject → Bool} : ((v.objects.filter q).map (·.name)).Nodup :=
    h.objectNames.sublist (List.filter_sublist.map _)
  rw [List.map_append, List.nodup_append]
  refine ⟨hsub, hsub, fun name hname name' hname' hsame ↦ ?_⟩
  obtain ⟨o, ho, rfl⟩ := List.mem_map.mp hname
  obtain ⟨o', ho', rfl⟩ := List.mem_map.mp hname'
  obtain ⟨hmem, hother⟩ := List.mem_filter.mp ho
  obtain ⟨hmem', hown⟩ := List.mem_filter.mp ho'
  obtain rfl := List.inj_on_of_nodup_map h.objectNames hmem hmem' hsame
  rw [Bool.and_eq_true, decide_eq_true_eq] at hown
  exact of_decide_eq_true hother hown.1

/-- Indexes, triggers and sequences follow. -/
theorem does_rebuild (h : Migratable v p d) (hp : ProxySource direct p) (hd : DailySource direct d)
    (ss : List (String × ℤ)) :
    ∃ v', Does (rebuildStatements direct (ownObjects v) ss) v v' ∧
      v'.tables = (carried direct v).tables ∧
      v'.objects = (carried direct v).objects ++ ownObjects v ∧
      (∀ name n, (carried direct v).sequences name = some n → ∃ m, v'.sequences name = some m ∧
        n ≤ m ∧ ∀ k, (name, k) ∈ ss → k ≤ m) ∧
      ∀ name ∉ ss.map Prod.fst, v'.sequences name = (carried direct v).sequences name := by
  have hunique : (⟨dailyDefinition direct, v.rows "traffic_daily"⟩ : Table).isUnique
      ["proxy_id", "date"] = true := by
    rw [← isUnique_congr hd.names]
    exact h.unique
  have htables : ∀ o ∈ ownObjects v, ∃ t, (carried direct v).tables o.table = some t ∧
      ∀ columns, o.kind = .index true columns → t.isUnique columns = true := by
    intro o ho
    rw [mem_ownObjects h] at ho
    unfold schemaObjects at ho
    simp only [List.mem_cons, List.not_mem_nil, or_false] at ho
    rcases ho with rfl | rfl | rfl | rfl | rfl | rfl
    · exact ⟨_, tables_carried_proxy direct v, by simp⟩
    · exact ⟨_, tables_carried_proxy direct v, by simp⟩
    · exact ⟨_, tables_carried_daily direct v, fun columns hkind ↦ by cases hkind; exact hunique⟩
    · exact ⟨_, tables_carried_daily direct v, by simp⟩
    · exact ⟨_, tables_carried_proxy direct v, by simp⟩
    · exact ⟨_, tables_carried_proxy direct v, by simp⟩
  obtain ⟨v', hraise, htables', hobjects', hsome, hother⟩ := does_raiseSequences
    { carried direct v with objects := (carried direct v).objects ++ ownObjects v } ss
  refine ⟨v', ?_, htables', hobjects', hsome, hother⟩
  have hstatements : rebuildStatements direct (ownObjects v) ss = rebuildStatements direct [] [] ++
      ((ownObjects v).map .createObject ++ ss.map fun s ↦ .raiseSequence s.1 s.2) := by
    unfold rebuildStatements
    rw [List.map_nil, List.map_nil, List.append_nil, List.append_nil, List.append_assoc]
  rw [hstatements]
  exact (does_carried h hp hd).append
    ((does_createObjects htables (names_carried h direct)).append hraise)

/-- The tables that were made can be made anew again. -/
theorem Migratable.rebuilt (h : Migratable v p d) (hp : ProxySource direct p)
    (hd : DailySource direct d) {v' : View} (htables : v'.tables = (carried direct v).tables)
    (hobjects : v'.objects = (carried direct v).objects ++ ownObjects v)
    (hsequences : ∀ name ∉ tables, v'.sequences name = v.sequences name) :
    Migratable v' (proxyDefinition direct) (dailyDefinition direct) := by
  have hproxy : v'.rows "proxy" = (v.rows "proxy").map (carry direct) := by
    rw [View.rows, htables, tables_carried_proxy]
    rfl
  have hdaily : v'.rows "traffic_daily" = v.rows "traffic_daily" := by
    rw [View.rows, htables, tables_carried_daily]
    rfl
  have hother {name : String} (hname : name ∉ tables) : v'.tables name = v.tables name := by
    rw [htables, tables_carried_of_notMem direct v hname]
  have hrows {name : String} (hname : name ∉ tables) : v'.rows name = v.rows name := by
    rw [View.rows, hother hname, View.rows]
  have hkeys : (v'.rows "proxy").map key = (v.rows "proxy").map key := by
    rw [hproxy, map_key_carry hp fun row hrow ↦ (h.proxy.accepts row hrow).length]
  have hmem {o : SchemaObject} : o ∈ v'.objects ↔
      o ∈ v.objects ∧ o.table ∉ tables ∨ o ∈ schemaObjects := by
    rw [hobjects, List.mem_append, mem_ownObjects h]
    dsimp only [carried]
    rw [List.mem_filter, decide_eq_true_eq]
  have hschema : ∀ o ∈ schemaObjects, o.table ∈ tables := fun o ho ↦ ((h.objects o).mpr ho).2
  refine ⟨⟨?_, ?_, ?_, ?_⟩, ⟨?_, ?_, ?_, ?_⟩, ?_, ?_, ?_, ?_, ?_, ?_, ?_⟩
  · rw [htables, tables_carried_proxy, hproxy]
  · intro row' hrow'
    rw [hproxy] at hrow'
    obtain ⟨row, hrow, rfl⟩ := List.mem_map.mp hrow'
    refine (accepts_carry hp (h.proxy.accepts row hrow) (h.proxy.ordinary row hrow)).congr
      fun c hc parent hparent ↦ congrArg _ ?_
    rcases proxy_parents hc hparent with rfl | rfl <;> exact hrows (by decide)
  · rw [hkeys]
    exact h.proxy.nodup
  · intro row' hrow'
    rw [hproxy] at hrow'
    obtain ⟨row, hrow, rfl⟩ := List.mem_map.mp hrow'
    exact ordinary_carry hp (h.proxy.accepts row hrow).length (h.proxy.ordinary row hrow)
  · rw [htables, tables_carried_daily, hdaily]
  · intro row hrow
    rw [hdaily] at hrow
    refine (accepts_daily hd (h.daily.accepts row hrow) (h.daily.ordinary row hrow)).congr
      fun c hc parent hparent ↦ ?_
    rcases daily_parents hc hparent with rfl | rfl
    · exact hkeys
    · exact congrArg _ (hrows (by decide))
  · rw [hdaily]
    exact h.daily.nodup
  · intro row hrow
    rw [hdaily] at hrow
    exact ordinary_daily hd (h.daily.ordinary row hrow)
  · intro name hname
    have hwork : name ∉ tables := by
      rcases List.mem_cons.mp hname with rfl | hname
      · decide
      · rw [List.mem_singleton.mp hname]
        decide
    rw [hother hwork, hsequences name hwork]
    exact h.fresh name hname
  · intro name hname
    have hnone : ∀ direct, ∀ c ∈ (proxyDefinition direct).columns ++ (dailyDefinition direct).columns,
        ∀ name ∈ "traffic_daily" :: workTables, c.parent ≠ some name := by decide
    unfold View.Unreferenced
    rw [htables]
    refine View.Unreferenced.update (View.Unreferenced.update (h.unreferenced name hname) ?_) ?_ <;>
    · rintro t ht c hc
      cases ht
      exact hnone direct c (by simp [hc]) name hname
  · intro name t ht c hc hparent
    rw [htables] at ht
    dsimp only [carried] at ht
    rw [Function.update_apply, Function.update_apply] at ht
    split_ifs at ht with hname hname'
    · exact hname
    · cases ht
      rcases proxy_parents hc hparent with h | h <;> exact absurd h (by decide)
    · exact h.referenced name t ht c hc hparent
  · intro o
    rw [hmem]
    constructor
    · rintro ⟨⟨-, hnot⟩ | ho, hown⟩
      · exact absurd hown hnot
      · exact ho
    · exact fun ho ↦ ⟨.inr ho, hschema o ho⟩
  · rw [hobjects]
    exact names_carried h direct
  · intro o ho
    rcases hmem.mp ho with ⟨ho, -⟩ | ho
    · exact h.objectTables o ho
    · exact h.objectTables o ((h.objects o).mpr ho).1
  · rw [hdaily, ← isUnique_congr hd.names]
    exact h.unique

end Rebuild

/-! ## Up and down -/

/-- A database as the earlier migrations and the use of it leave it. -/
def Earlier (db : Database) : Prop := Migratable db.view earlierProxy earlierDaily

theorem proxySource_earlier : ProxySource true earlierProxy :=
  ⟨by decide, earlierProxy.columns, [], (List.append_nil _).symm, by decide, by decide⟩

theorem dailySource_earlier : DailySource true earlierDaily := by
  unfold DailySource
  decide

theorem proxySource_direct : ProxySource false (proxyDefinition true) :=
  ⟨by decide, keptColumns true, directColumns, rfl, by decide, by decide⟩

theorem dailySource_direct : DailySource false (dailyDefinition true) := by
  unfold DailySource
  decide

theorem mem_selectSequences {db : Database} {name : String} {n : ℤ} :
    (name, n) ∈ selectSequences db ↔ name ∈ tables ∧ db.view.sequences name = some n := by
  have hentry : (name, n) ∈ db.sequences.entries.map (fun e ↦ (e.1, e.2)) ↔
      db.sequences.lookup name = some n := by
    rw [List.mem_map]
    refine Iff.trans ?_ AList.mem_lookup_iff.symm
    constructor
    · rintro ⟨⟨name', n'⟩, he, hsame⟩
      obtain ⟨rfl, rfl⟩ := Prod.mk.inj hsame
      exact he
    · exact fun he ↦ ⟨_, he, rfl⟩
  unfold selectSequences
  rw [List.mem_filter, hentry, decide_eq_true_eq, and_comm]
  rfl

/-- What is known of the database after the tables were made anew. -/
structure Rebuilt (direct : Bool) (db db' : Database) : Prop where
  view_tables : db'.view.tables = (carried direct db.view).tables
  view_objects : db'.view.objects = (carried direct db.view).objects ++ ownObjects db.view
  raised : ∀ name ∈ tables, ∃ m, db'.view.sequences name = some m ∧ db.sequence name ≤ max m 0
  others : ∀ name ∉ tables, db'.view.sequences name = db.view.sequences name

/-- A table's rows, read by the names of the columns that they had. -/
def KeepsTable (db db' : Database) (name : String) : Prop :=
  ∃ t t', db.tables.lookup name = some t ∧ db'.tables.lookup name = some t' ∧
    t'.rows.map (fun row ↦ t.names.map (t'.value row)) = t.rows

/-- Rows, indexes, triggers and the next ids are kept. -/
structure Keeps (db db' : Database) : Prop where
  rows : ∀ name ∈ tables, KeepsTable db db' name
  objects : ∀ o, o.table ∈ tables → (o ∈ db'.objects ↔ o ∈ db.objects)
  nextIds : ∀ name ∈ tables, db.nextId name ≤ db'.nextId name

section UpDown

variable {db db' : Database} {p d : Definition} {direct : Bool}

theorem sequences_carried (name : String) :
    (carried direct db.view).sequences name =
      if name = "traffic_daily" then (db.rows "traffic_daily").foldl raise (some 0)
      else if name = "proxy" then ((db.rows "proxy").map (carry direct)).foldl raise (some 0)
      else db.view.sequences name := by
  dsimp only [carried]
  rw [Function.update_apply, Function.update_apply]
  rfl

/-- A new table has a sequence, also if no row was copied. -/
theorem isSome_sequences_carried {name : String} (hname : name ∈ tables) :
    ((carried direct db.view).sequences name).isSome = true := by
  rw [sequences_carried]
  rcases List.mem_cons.mp hname with rfl | hname
  · rw [if_neg (by decide), if_pos rfl]
    exact foldl_raise_isSome _ 0
  · obtain rfl := List.mem_singleton.mp hname
    rw [if_pos rfl]
    exact foldl_raise_isSome _ 0

theorem exists_rebuilt (h : Migratable db.view p d) (hp : ProxySource direct p)
    (hd : DailySource direct d) (n : ℕ) :
    ∃ db', rebuild noFault n direct db = (.ok (), db') ∧ Rebuilt direct db db' := by
  obtain ⟨v', hdoes, htables, hobjects, hsome, hother⟩ :=
    does_rebuild h hp hd (selectSequences db)
  obtain ⟨db', htransaction, rfl⟩ := hdoes.transaction (n + 1) db rfl
  have hrebuild : rebuild noFault n direct db = (.ok (), db') := by
    have hrun : transaction noFault (n + 1)
        (rebuildStatements direct (selectObjects db) (selectSequences db)) db = (.ok (), db') :=
      htransaction
    unfold rebuild
    simp only [noFault] at hrun ⊢
    rw [hrun]
    rfl
  refine ⟨db', hrebuild, htables, hobjects, fun name hname ↦ ?_, fun name hname ↦ ?_⟩
  · obtain ⟨k, hk⟩ := Option.isSome_iff_exists.mp (isSome_sequences_carried hname)
    obtain ⟨m, hm, -, hbound⟩ := hsome name k hk
    refine ⟨m, hm, ?_⟩
    unfold Database.sequence
    cases hold : db.sequences.lookup name with
    | none => exact le_max_right m 0
    | some old =>
        exact (hbound old (mem_selectSequences.mpr ⟨hname, hold⟩)).trans (le_max_left m 0)
  · have hnot : name ∉ (selectSequences db).map Prod.fst := by
      intro hmem
      obtain ⟨⟨name', value⟩, hs, rfl⟩ := List.mem_map.mp hmem
      exact hname (mem_selectSequences.mp hs).1
    rw [hother name hnot, sequences_carried]
    rw [tables, List.mem_cons, List.mem_singleton, not_or] at hname
    rw [if_neg hname.2, if_neg hname.1]

/-- The values under the names of the old columns. -/
theorem map_value_carry {row : Row} (hlength : row.length = 15) :
    columns.map ((proxyDefinition direct).value (carry direct row)) = row := by
  have hcolumns : ∃ extra, (proxyDefinition direct).columns = keptColumns direct ++ extra :=
    ⟨_, rfl⟩
  obtain ⟨extra, hcolumns⟩ := hcolumns
  have hkept : columns = (keptColumns direct).map (·.name) := by cases direct <;> rfl
  unfold carry
  rw [hkept, List.take_of_length_le hlength.le]
  refine map_value_append hcolumns ?_ hlength
  rw [← hkept]
  decide

theorem maxId_eq_foldl_key (rows : List Row) : maxId rows =
    (rows.map key).foldl (fun m k ↦ match k with | .int n => max m n | _ => m) 0 := by
  rw [List.foldl_map]
  rfl

theorem maxId_congr {rows rows' : List Row} (h : rows.map key = rows'.map key) :
    maxId rows = maxId rows' := by
  rw [maxId_eq_foldl_key, maxId_eq_foldl_key, h]

theorem le_foldl_maxId (rows : List Row) (m : ℤ) :
    m ≤ rows.foldl (fun m row ↦ match key row with | .int n => max m n | _ => m) m := by
  induction rows generalizing m with
  | nil => exact le_rfl
  | cons row rows ih =>
      refine le_trans ?_ (ih _)
      dsimp only
      cases key row with
      | null => exact le_rfl
      | int n => exact le_max_left m n
      | text s => exact le_rfl

theorem maxId_nonneg (rows : List Row) : 0 ≤ maxId rows := le_foldl_maxId rows 0

theorem Rebuilt.rows_proxy (h : Rebuilt direct db db') :
    db'.rows "proxy" = (db.rows "proxy").map (carry direct) := by
  have hview : db'.view.tables "proxy" = _ := congrFun h.view_tables "proxy"
  rw [tables_carried_proxy] at hview
  exact congrArg (fun t : Option Table ↦ (t.map (·.rows)).getD []) hview

theorem Rebuilt.rows_daily (h : Rebuilt direct db db') :
    db'.rows "traffic_daily" = db.rows "traffic_daily" := by
  have hview : db'.view.tables "traffic_daily" = _ := congrFun h.view_tables "traffic_daily"
  rw [tables_carried_daily] at hview
  exact congrArg (fun t : Option Table ↦ (t.map (·.rows)).getD []) hview

theorem Rebuilt.map_key (h : Rebuilt direct db db') (hm : Migratable db.view p d)
    (hp : ProxySource direct p) {name : String} (hname : name ∈ tables) :
    (db'.rows name).map key = (db.rows name).map key := by
  rcases List.mem_cons.mp hname with rfl | hname
  · rw [h.rows_proxy]
    exact map_key_carry hp fun row hrow ↦ (hm.proxy.accepts row hrow).length
  · obtain rfl := List.mem_singleton.mp hname
    rw [h.rows_daily]

/-- The next id of a table does not fall: its sequence is raised to what it was. -/
theorem Rebuilt.nextId_le (h : Rebuilt direct db db') (hm : Migratable db.view p d)
    (hp : ProxySource direct p) {name : String} (hname : name ∈ tables) :
    db.nextId name ≤ db'.nextId name := by
  have hmax : maxId (db'.rows name) = maxId (db.rows name) := maxId_congr (h.map_key hm hp hname)
  have hpos := maxId_nonneg (db.rows name)
  obtain ⟨m, hsome, hle⟩ := h.raised name hname
  have hsequence : db'.sequence name = m := by
    have hlookup : db'.sequences.lookup name = some m := hsome
    rw [Database.sequence, hlookup]
    rfl
  unfold Database.nextId
  rw [hmax, hsequence]
  omega

/-- The rows are found again under the names of their columns. -/
theorem Rebuilt.keepsTable (h : Rebuilt true db db') (hm : Earlier db) {name : String}
    (hname : name ∈ tables) : KeepsTable db db' name := by
  rcases List.mem_cons.mp hname with rfl | hname
  · have hview : db'.view.tables "proxy" = _ := congrFun h.view_tables "proxy"
    rw [tables_carried_proxy] at hview
    refine ⟨_, _, hm.proxy.table, hview, ?_⟩
    dsimp only
    rw [List.map_map]
    refine (List.map_congr_left fun row hrow ↦ ?_).trans (List.map_id _)
    exact map_value_carry (hm.proxy.accepts row hrow).length
  · obtain rfl := List.mem_singleton.mp hname
    have hview : db'.view.tables "traffic_daily" = _ := congrFun h.view_tables "traffic_daily"
    rw [tables_carried_daily] at hview
    refine ⟨_, _, hm.daily.table, hview, ?_⟩
    dsimp only
    refine (List.map_congr_left fun row hrow ↦ ?_).trans (List.map_id _)
    have hnames : earlierDaily.names = (dailyDefinition true).names := dailySource_earlier.names
    exact hnames ▸ map_value_names (names_nodup true).2 (hm.daily.accepts row hrow).length

theorem Rebuilt.objects_iff (h : Rebuilt direct db db') (hm : Migratable db.view p d)
    {o : SchemaObject} (ho : o.table ∈ tables) : o ∈ db'.objects ↔ o ∈ db.objects := by
  have hobjects : db'.objects = _ := h.view_objects
  rw [hobjects, List.mem_append, mem_ownObjects hm, ← hm.objects]
  constructor
  · rintro (hother | hown)
    · exact absurd ho (of_decide_eq_true (List.mem_filter.mp hother).2)
    · exact hown.1
  · exact fun hmem ↦ .inr ⟨hmem, ho⟩

/-- Down after up gives the rows back. -/
theorem exists_down (h : Rebuilt true db db') (hm : Earlier db) :
    ∃ db'', down noFault db' = (.ok (), db'') ∧ ∀ name ∈ tables, db''.rows name = db.rows name := by
  have hm' : Migratable db'.view (proxyDefinition true) (dailyDefinition true) :=
    Migratable.rebuilt hm proxySource_earlier dailySource_earlier h.view_tables h.view_objects h.others
  obtain ⟨db'', hrebuild, hdown⟩ := exists_rebuilt hm' proxySource_direct dailySource_direct 1
  refine ⟨db'', ?_, fun name hname ↦ ?_⟩
  · have hlookup : db'.tables.lookup "proxy" =
        some ⟨proxyDefinition true, db'.view.rows "proxy"⟩ := hm'.proxy.table
    have hclient : (db'.view.rows "proxy").any (fun row ↦
        (proxyDefinition true).value row "client_id" = .null) = false := by
      rw [List.any_eq_false]
      intro row hrow hnull
      obtain ⟨client, hmem⟩ := exists_mem_zip (show clientColumn true .text ∈ _ by decide)
        (hm'.proxy.accepts row hrow).length
      refine (hm'.proxy.ordinary row hrow).client _ hmem rfl ?_
      rw [← value_of_mem_zip (names_nodup true).1 hmem]
      exact of_decide_eq_true hnull
    simp only [down, noFault, hlookup, hclient, Bool.false_eq_true, if_false]
    exact hrebuild
  · rcases List.mem_cons.mp hname with rfl | hname
    · rw [hdown.rows_proxy, h.rows_proxy, List.map_map]
      refine (List.map_congr_left fun row hrow ↦ ?_).trans (List.map_id _)
      have hlength : row.length = 15 := (hm.proxy.accepts row hrow).length
      dsimp only [Function.comp_apply, carry, id]
      rw [List.take_of_length_le hlength.le, List.take_left' hlength]
      exact List.append_nil row
    · obtain rfl := List.mem_singleton.mp hname
      rw [hdown.rows_daily, h.rows_daily]

end UpDown

/-! ## Failures and refusals -/

section Failures

variable {fault : ℕ → Option String} {db : Database} {direct : Bool}

/-- The number of calls: the query of the objects, `begin`, the statements and `commit`. -/
def calls (direct : Bool) (db : Database) : ℕ :=
  (rebuildStatements direct (selectObjects db) (selectSequences db)).length + 3

theorem rebuild_error {n : ℕ} {e : DbErr} (h : (rebuild fault n direct db).1 = .error e) :
    (rebuild fault n direct db).2 = db := by
  unfold rebuild at h ⊢
  cases hcall : fault n with
  | some e' => rfl
  | none =>
      rw [hcall] at h
      dsimp only at h ⊢
      cases hresult : (transaction fault (n + 1)
          (rebuildStatements direct (selectObjects db) (selectSequences db)) db).1 with
      | ok u =>
          rw [hresult] at h
          cases h
      | error e' => exact transaction_error hresult

theorem rebuild_fault {n k : ℕ} (hfault : fault k ≠ none) (hn : n ≤ k)
    (hk : k < n + calls direct db) : ∃ e, (rebuild fault n direct db).1 = .error (.exec e) := by
  unfold rebuild
  cases hcall : fault n with
  | some e => exact ⟨e, rfl⟩
  | none =>
      have hne : n ≠ k := fun h ↦ hfault (h ▸ hcall)
      unfold calls at hk
      obtain ⟨e, he⟩ := @transaction_fault fault (n + 1) k
        (rebuildStatements direct (selectObjects db) (selectSequences db)) db hfault
        (by omega) (by omega)
      refine ⟨e, ?_⟩
      dsimp only
      rw [he]
      rfl

/-- Whatever fails, the database is as it was. -/
theorem down_error {e : DbErr} (h : (down fault db).1 = .error e) : (down fault db).2 = db := by
  unfold down at h ⊢
  cases hcall : fault 0 with
  | some e' => rfl
  | none =>
      rw [hcall] at h
      cases hlookup : db.tables.lookup "proxy" with
      | none => rfl
      | some proxy =>
          rw [hlookup] at h
          dsimp only at h ⊢
          split_ifs at h ⊢
          · rfl
          · exact rebuild_error h

theorem down_fault {k : ℕ} (hfault : fault k ≠ none) (hk : k < calls false db + 1) :
    ∃ e, (down fault db).1 = .error e := by
  unfold down
  cases hcall : fault 0 with
  | some e => exact ⟨_, rfl⟩
  | none =>
      have hne : 0 ≠ k := fun h ↦ hfault (h ▸ hcall)
      cases db.tables.lookup "proxy" with
      | none => exact ⟨_, rfl⟩
      | some proxy =>
          dsimp only
          split_ifs
          · exact ⟨_, rfl⟩
          · obtain ⟨e, he⟩ := @rebuild_fault fault db false 1 k hfault (by omega) (by omega)
            exact ⟨_, he⟩

/-- A proxy that the node serves from an upstream. -/
def IsDirect (row : Row) : Prop := (proxyDefinition true).value row "upstream_url" ≠ .text ""

/-- A database with direct proxies: the check of the table holds of its rows. -/
def Later (db : Database) : Prop :=
  db.tables.lookup "proxy" = some ⟨proxyDefinition true, db.rows "proxy"⟩ ∧
    ∀ row ∈ db.rows "proxy", directCheck ((proxyDefinition true).value row) = true

/-- The direct proxies are those without a client. -/
theorem isDirect_iff {row : Row} (h : directCheck ((proxyDefinition true).value row) = true) :
    IsDirect row ↔ (proxyDefinition true).value row "client_id" = .null := by
  unfold IsDirect
  by_cases hupstream : (proxyDefinition true).value row "upstream_url" = .text ""
  · simp only [directCheck, hupstream] at h
    simpa [hupstream] using h
  · simp only [directCheck, hupstream] at h
    simp only [hupstream, ne_eq, not_false_eq_true, true_iff]
    simp only [decide_false, Bool.false_and, Bool.false_or, decide_not, Bool.and_eq_true,
      decide_eq_true_eq] at h
    exact h.1.1.1.1.2

theorem down_refuses_iff (h : Later db) (hfault : fault 0 = none) :
    (down fault db).1 = .error refusal ↔ ∃ row ∈ db.rows "proxy", IsDirect row := by
  obtain ⟨htable, hcheck⟩ := h
  have hany : (∃ row ∈ db.rows "proxy", IsDirect row) ↔ (db.rows "proxy").any (fun row ↦
      (proxyDefinition true).value row "client_id" = .null) = true := by
    rw [List.any_eq_true]
    refine exists_congr fun row ↦ and_congr_right fun hrow ↦ ?_
    rw [isDirect_iff (hcheck row hrow), decide_eq_true_eq]
  rw [hany]
  unfold down
  rw [hfault, htable]
  dsimp only
  split_ifs with hdirect
  · exact iff_of_true rfl hdirect
  · refine iff_of_false (fun hrefusal ↦ ?_) hdirect
    -- the errors of the statements are of another kind
    unfold rebuild at hrefusal
    cases hcall : fault 1 with
    | some e =>
        rw [hcall] at hrefusal
        cases hrefusal
    | none =>
        rw [hcall] at hrefusal
        dsimp only at hrefusal
        cases hresult : (transaction fault 2
            (rebuildStatements false (selectObjects db) (selectSequences db)) db).1 with
        | ok u =>
            rw [hresult] at hrefusal
            cases hrefusal
        | error e =>
            rw [hresult] at hrefusal
            cases hrefusal

end Failures

/-- The migration keeps everything, in both directions. -/
structure Preserves (db : Database) : Prop where
  up_down : ∃ db', up noFault db = (.ok (), db') ∧ Keeps db db' ∧
    ∃ db'', down noFault db' = (.ok (), db'') ∧ ∀ name ∈ tables, db''.rows name = db.rows name
  up_fails : ∀ fault, (∃ n < calls true db, fault n ≠ none) → ∃ e, (up fault db).1 = .error e
  up_atomic : ∀ fault e, (up fault db).1 = .error e → (up fault db).2 = db
  down_fails : ∀ fault later, (∃ n < calls false later + 1, fault n ≠ none) →
    ∃ e, (down fault later).1 = .error e
  down_atomic : ∀ fault later e, (down fault later).1 = .error e → (down fault later).2 = later
  refuses : ∀ later, Later later →
    ((down noFault later).1 = .error refusal ↔ ∃ row ∈ later.rows "proxy", IsDirect row)

/-- The migration preserves the data of every database that the earlier ones leave. -/
theorem preserves_of_earlier (db : Database) (h : Earlier db) : Preserves db := by
  obtain ⟨db', hup, hrebuilt⟩ := exists_rebuilt h proxySource_earlier dailySource_earlier 0
  refine ⟨⟨db', hup, ⟨fun name hname ↦ hrebuilt.keepsTable h hname,
    fun o ho ↦ hrebuilt.objects_iff h ho, fun name hname ↦
      hrebuilt.nextId_le h proxySource_earlier hname⟩,
    exists_down hrebuilt h⟩, ?_, fun _ _ ↦ rebuild_error,
    fun _ _ ⟨_, hn, hfault⟩ ↦ down_fault hfault hn, fun _ _ _ ↦ down_error,
    fun later hlater ↦ down_refuses_iff hlater rfl⟩
  rintro fault ⟨n, hn, hfault⟩
  obtain ⟨e, he⟩ := @rebuild_fault fault db true 0 n hfault (Nat.zero_le n) (by omega)
  exact ⟨_, he⟩

/-- A database with one client and the ids of proxies and daily traffic used so far. -/
def sample (proxies daily : List Row) (used : AList fun _ : String ↦ ℤ) : Database where
  tables := (((∅ : AList fun _ : String ↦ Table).insert "client"
    ⟨⟨[required "id" .integer], true, fun _ ↦ true⟩, [[.int 1]]⟩).insert "proxy"
    ⟨earlierProxy, proxies⟩).insert "traffic_daily" ⟨earlierDaily, daily⟩
  sequences := used
  objects := schemaObjects

theorem tables_sample (proxies daily : List Row) (used : AList fun _ : String ↦ ℤ) :
    (sample proxies daily used).view.tables = Function.update (Function.update
      (Function.update (fun _ ↦ none) "client"
        (some ⟨⟨[required "id" .integer], true, fun _ ↦ true⟩, [[.int 1]]⟩)) "proxy"
      (some ⟨earlierProxy, proxies⟩)) "traffic_daily" (some ⟨earlierDaily, daily⟩) := by
  unfold Database.view sample
  rw [lookup_insert_eq_update, lookup_insert_eq_update, lookup_insert_eq_update]
  rfl

theorem earlier_sample {proxies daily : List Row} {used : AList fun _ : String ↦ ℤ}
    (hproxies : ∀ row ∈ proxies, (sample proxies daily used).view.Accepts earlierProxy row ∧
      Ordinary earlierProxy row)
    (hdaily : ∀ row ∈ daily, (sample proxies daily used).view.Accepts earlierDaily row ∧
      Ordinary earlierDaily row)
    (hnodup : (proxies.map key).Nodup ∧ (daily.map key).Nodup)
    (hunique : (⟨earlierDaily, daily⟩ : Table).isUnique ["proxy_id", "date"] = true)
    (hused : ∀ name ∈ workTables, used.lookup name = none) :
    Earlier (sample proxies daily used) := by
  have htables := tables_sample proxies daily used
  have hrows : (sample proxies daily used).view.rows "proxy" = proxies ∧
      (sample proxies daily used).view.rows "traffic_daily" = daily := by
    unfold View.rows
    rw [htables]
    exact ⟨rfl, rfl⟩
  have hnone : ∀ c ∈ required "id" .integer :: earlierProxy.columns ++ earlierDaily.columns,
      ∀ name ∈ "traffic_daily" :: workTables, c.parent ≠ some name := by decide
  refine ⟨⟨?_, ?_, ?_, ?_⟩, ⟨?_, ?_, ?_, ?_⟩, ?_, ?_, ?_, ?_, ?_, ?_, ?_⟩
  · rw [htables, hrows.1]
    rfl
  · exact hrows.1.symm ▸ fun row hrow ↦ (hproxies row hrow).1
  · exact hrows.1.symm ▸ hnodup.1
  · exact hrows.1.symm ▸ fun row hrow ↦ (hproxies row hrow).2
  · rw [htables, hrows.2]
    rfl
  · exact hrows.2.symm ▸ fun row hrow ↦ (hdaily row hrow).1
  · exact hrows.2.symm ▸ hnodup.2
  · exact hrows.2.symm ▸ fun row hrow ↦ (hdaily row hrow).2
  · intro name hname
    refine ⟨?_, hused name hname⟩
    rw [htables]
    have hother : name ≠ "traffic_daily" ∧ name ≠ "proxy" ∧ name ≠ "client" := by
      rcases List.mem_cons.mp hname with rfl | hname
      · decide
      · rw [List.mem_singleton.mp hname]
        decide
    rw [Function.update_of_ne hother.1, Function.update_of_ne hother.2.1,
      Function.update_of_ne hother.2.2]
  · intro name hname
    unfold View.Unreferenced
    rw [htables]
    refine View.Unreferenced.update (View.Unreferenced.update (View.Unreferenced.update nofun ?_)
      ?_) ?_ <;>
    · rintro t ht c hc
      cases ht
      exact hnone c (by simp_all) name hname
  · intro name t ht c hc hparent
    rw [htables, Function.update_apply, Function.update_apply, Function.update_apply] at ht
    have hproxy : ∀ c ∈ required "id" .integer :: earlierProxy.columns,
        c.parent ≠ some "proxy" := by decide
    split_ifs at ht with hname hname' hname''
    · exact hname
    · cases ht
      exact absurd hparent (hproxy c (List.mem_cons_of_mem _ hc))
    · cases ht
      obtain rfl := List.mem_singleton.mp hc
      exact absurd hparent (hproxy _ List.mem_cons_self)
  · have hown : ∀ o ∈ schemaObjects, o.table ∈ tables := by
      intro o ho
      have hall : schemaObjects.all (fun o ↦ o.table ∈ tables) = true := by decide
      exact of_decide_eq_true (List.all_eq_true.mp hall o ho)
    exact fun o ↦ ⟨fun ho ↦ ho.1, fun ho ↦ ⟨ho, hown o ho⟩⟩
  · change (schemaObjects.map (·.name)).Nodup
    decide
  · intro o ho
    have hall : schemaObjects.all (fun o ↦ o.table ∉ workTables) = true := by decide
    exact of_decide_eq_true (List.all_eq_true.mp hall o ho)
  · exact hrows.2.symm ▸ hunique

/-- A proxy of the client, with a node and without a group. -/
def sampleProxy : Row :=
  [.int 3, .text "web", .text "http", .text "127.0.0.1", .int 80, .int 8080, .int 1, .int 0, .int 0,
    .text "2026-10-09 12:00:00", .text "2026-10-09 12:00:00", .text "1", .int 1, .null,
    .text "old.test"]

/-- Its traffic of a day. -/
def sampleDaily : Row :=
  [.int 2, .int 3, .int 1, .int 10, .int 20, .text "2026-10-09", .text "2026-10-09 12:00:00",
    .text "2026-10-09 12:00:00"]

theorem isDateTime_sample : IsDateTime (.text "2026-10-09 12:00:00") :=
  ⟨['2', '0', '2', '6'], "10-09 12:00:00".toList, by decide +kernel, List.cons_ne_nil _ _, by
    simp [Char.isDigit]⟩

/-- The newest rows of both tables have been deleted. -/
def usedIds : AList fun _ : String ↦ ℤ :=
  ((∅ : AList _).insert "traffic_daily" 9).insert "proxy" 7

theorem lookup_usedIds : ∀ name ∈ workTables, usedIds.lookup name = none := by
  intro name hname
  have hne : name ≠ "proxy" ∧ name ≠ "traffic_daily" := by
    rcases List.mem_cons.mp hname with rfl | hname
    · decide
    · rw [List.mem_singleton.mp hname]
      decide
  unfold usedIds
  rw [AList.lookup_insert_ne hne.1, AList.lookup_insert_ne hne.2]
  rfl

theorem preserves_of_earlier_sample : Preserves (sample [sampleProxy] [sampleDaily] usedIds) := by
  have hordinary {d : Definition} {row : Row}
      (htime : ∀ e ∈ d.columns.zip row, e.1.name ∈ times → e.2 = .text "2026-10-09 12:00:00")
      (hclient : ∀ e ∈ d.columns.zip row, e.1.name = "client_id" → e.2 ≠ .null) :
      Ordinary d row := by
    refine ⟨fun e he hname ↦ ?_, hclient⟩
    rw [htime e he hname]
    exact isDateTime_sample
  refine preserves_of_earlier _ (earlier_sample ?_ ?_ ⟨by decide, by decide⟩ (by decide)
    lookup_usedIds)
  · rintro row hrow
    obtain rfl := List.mem_singleton.mp hrow
    exact ⟨⟨rfl, by decide +kernel, rfl, 3, rfl⟩, hordinary (by decide) (by decide)⟩
  · rintro row hrow
    obtain rfl := List.mem_singleton.mp hrow
    exact ⟨⟨rfl, by decide +kernel, rfl, 2, rfl⟩, hordinary (by decide) (by decide)⟩

end Oxiproxy.Controller.DirectProxyMigration
