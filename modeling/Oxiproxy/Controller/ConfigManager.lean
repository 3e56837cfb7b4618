import Oxiproxy.Common.Float
import Oxiproxy.Foundation.HashMap
import Oxiproxy.Foundation.Runs
import Oxiproxy.Foundation.Table

/-!
# The configuration cache

The configuration manager keeps the values of the configuration table in a
cache.  A value is set in the cache first and then written to its row as a text,
which a later load parses by the type that the row declares.
-/

namespace Oxiproxy.Controller

open Transition

inductive ConfigValue
  | number (n : Int64)
  | float (f : F64)
  | string (s : String)
  | boolean (b : Bool)
  deriving DecidableEq, Repr

namespace ConfigValue

def asI64 : ConfigValue → Option Int64
  | number n => some n
  | _ => none

def asF64 : ConfigValue → Option F64
  | float f => some f
  | number n => some (.ofInt n.toInt)
  | _ => none

def asString : ConfigValue → Option String
  | string s => some s
  | _ => none

def asBool : ConfigValue → Option Bool
  | boolean b => some b
  | _ => none

end ConfigValue

/-- A row of the configuration table. -/
structure SystemConfig where
  key : String
  value : String
  valueType : String
  deriving DecidableEq, Repr

instance : Keyed String SystemConfig := ⟨SystemConfig.key⟩

/-- The JSON library on strings: what it writes, it reads back. -/
structure JsonStrings where
  encode : String → String
  decode : String → Option String
  decode_encode : ∀ s, decode (encode s) = some s

/-- The configuration manager and the table that it reads and writes. -/
structure ConfigManager where
  cache : AList fun _ : String ↦ ConfigValue
  configs : Table SystemConfig

/-- How the queries of a call end: each may fail with an error. -/
structure DbSteps where
  find : Option String := none
  update : Option String := none
  deriving DecidableEq, Repr

namespace ConfigManager

variable (json : JsonStrings)

/-- A manager with nothing in its cache. -/
def new (configs : Table SystemConfig) : ConfigManager := ⟨∅, configs⟩

def parseValue (valueStr valueType : String) : ConfigValue :=
  if valueType = "number" then
    match parseI64 valueStr with
    | some n => .number (Int64.ofInt n)
    | none =>
        match F64.parse valueStr with
        | some f => .float f
        | none => .number 0
  else if valueType = "boolean" then .boolean ((parseBool valueStr).getD false)
  else if valueType = "string" then .string ((json.decode valueStr).getD valueStr)
  else .string valueStr

def loadFromDb (m : ConfigManager) (steps : DbSteps) : ConfigManager × Except String Unit :=
  match steps.find with
  | some e => (m, .error e)
  | none =>
      ({ m with
        cache := m.configs.rows.foldl
          (fun cache config ↦
            cache.insert config.key (parseValue json config.value config.valueType))
          m.cache }, .ok ())

def get (m : ConfigManager) (key : String) : Option ConfigValue := m.cache.lookup key

def valueStr : ConfigValue → String
  | .number n => toString n.toInt
  | .float f => f.display
  | .string s => json.encode s
  | .boolean b => toString b

def set (m : ConfigManager) (key : String) (value : ConfigValue) (steps : DbSteps) :
    ConfigManager × Except String Unit :=
  let m := { m with cache := m.cache.insert key value }
  match steps.find with
  | some e => (m, .error e)
  | none =>
      match m.configs.find key with
      | none => (m, .ok ())
      | some _ =>
          match steps.update with
          | some e => (m, .error e)
          | none =>
              ({ m with
                configs := m.configs.modify key ({ · with value := valueStr json value })
                  fun _ ↦ rfl }, .ok ())

end ConfigManager

namespace ConfigValue

/-! ## Typed getters, on what is cached for a key -/

def getNumber (cached : Option ConfigValue) (default : Int64) : Int64 :=
  (cached.bind asI64).getD default

def getFloat (cached : Option ConfigValue) (default : F64) : F64 :=
  (cached.bind asF64).getD default

def getString (cached : Option ConfigValue) (default : String) : String :=
  (cached.bind asString).getD default

def getBool (cached : Option ConfigValue) (default : Bool) : Bool :=
  (cached.bind asBool).getD default

/-- The getters of a type give the same for two cached values. -/
def SameResult (valueType : String) (a b : Option ConfigValue) : Prop :=
  if valueType = "number" then
    (∀ default, getNumber a default = getNumber b default) ∧
      ∀ default, (getFloat a default).canonical = (getFloat b default).canonical
  else if valueType = "boolean" then ∀ default, getBool a default = getBool b default
  else ∀ default, getString a default = getString b default

/-- The types that a row can declare for a value. -/
def hasType (valueType : String) : ConfigValue → Bool
  | number _ | float _ => valueType = "number"
  | boolean _ => valueType = "boolean"
  | string _ => valueType = "string"

/-- A float whose text reads as an integer. -/
def IsWholeFloat : ConfigValue → Prop
  | float f => (parseI64 f.display).isSome = true
  | _ => False

section SameResult

variable {valueType : String} {a b c : Option ConfigValue} {value : ConfigValue}

@[refl] theorem SameResult.refl : SameResult valueType a a := by
  unfold SameResult
  split_ifs <;> simp

theorem SameResult.symm (h : SameResult valueType a b) : SameResult valueType b a := by
  unfold SameResult at *
  split_ifs at * with hnumber hboolean
  · exact ⟨fun default ↦ (h.1 default).symm, fun default ↦ (h.2 default).symm⟩
  · exact fun default ↦ (h default).symm
  · exact fun default ↦ (h default).symm

theorem SameResult.trans (h : SameResult valueType a b) (h' : SameResult valueType b c) :
    SameResult valueType a c := by
  unfold SameResult at *
  split_ifs at * with hnumber hboolean
  · exact ⟨fun default ↦ (h.1 default).trans (h'.1 default),
      fun default ↦ (h.2 default).trans (h'.2 default)⟩
  · exact fun default ↦ (h default).trans (h' default)
  · exact fun default ↦ (h default).trans (h' default)

end SameResult

end ConfigValue

/-! ## Calls -/

/-- A call of the manager. -/
inductive Call
  | load (steps : DbSteps)
  | set (key : String) (value : ConfigValue) (steps : DbSteps)
  deriving DecidableEq, Repr

namespace ConfigManager

variable (json : JsonStrings)

def apply (m : ConfigManager) : Call → ConfigManager × Except String Unit
  | .load steps => m.loadFromDb json steps
  | .set key value steps => m.set json key value steps

/-- The value set for a key has the type that the row of the key declares. -/
def WellTyped (m : ConfigManager) : Call → Prop
  | .load _ => True
  | .set key value _ => ∀ row ∈ m.configs.find key, value.hasType row.valueType = true

instance (m : ConfigManager) (call : Call) : Decidable (m.WellTyped call) :=
  match call with
  | .load _ => inferInstanceAs (Decidable True)
  | .set key value _ =>
      inferInstanceAs (Decidable (∀ row ∈ m.configs.find key, value.hasType row.valueType = true))

def step (m : ConfigManager) (call : Call) : Option ConfigManager :=
  if m.WellTyped call then some (m.apply json call).1 else none

/-- For every row, the value cached for its key and the value that a fresh load
would cache give the same. -/
def Agrees (m : ConfigManager) : Prop :=
  ∀ row ∈ m.configs.rows, ConfigValue.SameResult row.valueType (m.get row.key)
    ((m.loadFromDb json {}).1.get row.key)

/-- What is promised after a call: agreement, and an error changes no value. -/
def Promised (m : ConfigManager) (call : Call) (m' : ConfigManager) : Prop :=
  m'.Agrees json ∧ ((m.apply json call).2.toBool = false →
    ∀ row ∈ m.configs.rows, ConfigValue.SameResult row.valueType (m'.get row.key) (m.get row.key))

/-- A value is set without an error and is no whole float, or it is the value
that the row has. -/
def Keeps (m : ConfigManager) : Call → Prop
  | .load _ => True
  | .set key value steps => ∀ row ∈ m.configs.find key,
      if steps = {} then ¬ value.IsWholeFloat
      else ConfigValue.SameResult row.valueType (some value)
        (some (parseValue json row.value row.valueType))

/-- The first call of a manager loads the table, or there is nothing to load but what
it writes itself. -/
def Starts (configs : Table SystemConfig) : Call → Prop
  | .load steps => steps.find = none ∨ configs.rows = []
  | .set key value steps => ∀ row ∈ configs.rows,
      row.key = key ∧ steps = {} ∧ ¬ value.IsWholeFloat

section Agreement

variable {json : JsonStrings} {m : ConfigManager} {row : SystemConfig} {value : ConfigValue}
  {key : String} {steps : DbSteps} {call : Call}

/-- A load caches what the rows say. -/
theorem get_loadFromDb (hrow : row ∈ m.configs.rows) :
    (m.loadFromDb json {}).1.get row.key = some (parseValue json row.value row.valueType) :=
  AList.lookup_foldl_insert SystemConfig.key
    (fun config ↦ parseValue json config.value config.valueType) m.configs.nodup hrow m.cache

theorem agrees_iff : m.Agrees json ↔ ∀ key row, m.configs.find key = some row →
    ConfigValue.SameResult row.valueType (m.get key)
      (some (parseValue json row.value row.valueType)) := by
  constructor
  · intro h key row hrow
    obtain ⟨hmem, rfl⟩ := Table.find_eq_some.mp hrow
    have hrow' := h row hmem
    rwa [get_loadFromDb hmem] at hrow'
  · intro h row hmem
    rw [get_loadFromDb hmem]
    exact h row.key row (Table.mem_iff_find.mp hmem)

theorem agrees_loadFromDb : (m.loadFromDb json {}).1.Agrees json := by
  refine agrees_iff.mpr fun key row hrow ↦ ?_
  obtain ⟨hmem, rfl⟩ := Table.find_eq_some.mp hrow
  have hget : (m.loadFromDb json {}).1.get row.key = _ := get_loadFromDb hmem
  change ConfigValue.SameResult row.valueType ((m.loadFromDb json {}).1.get row.key) _
  rw [hget]

/-- The text of a value is parsed as the value, unless it is a whole float. -/
theorem sameResult_parseValue_iff {valueType : String} (htype : value.hasType valueType = true) :
    ConfigValue.SameResult valueType (some value)
      (some (parseValue json (valueStr json value) valueType)) ↔ ¬ value.IsWholeFloat := by
  cases value with
  | number n =>
      obtain rfl : valueType = "number" := of_decide_eq_true htype
      have hrange : -2 ^ 63 ≤ n.toInt ∧ n.toInt < 2 ^ 63 := ⟨n.le_toInt, n.toInt_lt⟩
      rw [parseValue, if_pos rfl, valueStr, parseI64_toString, if_pos hrange]
      dsimp only
      rw [Int64.ofInt_toInt]
      exact iff_of_true .refl id
  | float f =>
      obtain rfl : valueType = "number" := of_decide_eq_true htype
      rw [parseValue, if_pos rfl, valueStr, ConfigValue.IsWholeFloat]
      cases hwhole : parseI64 f.display with
      | some n =>
          refine iff_of_false (fun h ↦ ?_) (not_not_intro rfl)
          rw [ConfigValue.SameResult, if_pos rfl] at h
          have hzero : (0 : Int64) = Int64.ofInt n := h.1 0
          have hone : (1 : Int64) = Int64.ofInt n := h.1 1
          exact absurd (hzero.trans hone.symm) (by decide)
      | none =>
          refine iff_of_true ?_ Bool.false_ne_true
          rw [F64.parse_display, ConfigValue.SameResult, if_pos rfl]
          exact ⟨fun _ ↦ rfl, fun _ ↦ f.canonical_canonical.symm⟩
  | string s =>
      obtain rfl : valueType = "string" := of_decide_eq_true htype
      have hparse : parseValue json (json.encode s) "string" = .string s := by
        simp [parseValue, json.decode_encode]
      rw [valueStr, hparse]
      exact iff_of_true .refl id
  | boolean b =>
      obtain rfl : valueType = "boolean" := of_decide_eq_true htype
      have hparse : parseValue json (toString b) "boolean" = .boolean b := by
        cases b <;> rfl
      rw [valueStr, hparse]
      exact iff_of_true .refl id

theorem isEmpty_iff : steps = {} ↔ steps.find = none ∧ steps.update = none := by
  cases steps
  simp

/-- What a call of `set` leaves behind for a key with a row. -/
theorem set_cases (hrow : m.configs.find key = some row) :
    (steps = {} ∧ (m.set json key value steps).2 = .ok () ∧
      (m.set json key value steps).1.configs =
        m.configs.modify key ({ · with value := valueStr json value }) fun _ ↦ rfl) ∨
    (steps ≠ {} ∧ (m.set json key value steps).2.toBool = false ∧
      (m.set json key value steps).1.configs = m.configs) := by
  obtain ⟨find, update⟩ := steps
  unfold set
  cases find with
  | some e => exact .inr ⟨by simp, rfl, rfl⟩
  | none =>
      cases update with
      | some e => simp [hrow, Except.toBool]
      | none => simp [hrow]

theorem cache_set : (m.set json key value steps).1.cache = m.cache.insert key value := by
  unfold set
  dsimp only
  split
  · rfl
  · split
    · rfl
    · split <;> rfl

theorem get_set (j : String) :
    (m.set json key value steps).1.get j = if j = key then some value else m.get j := by
  rw [get, cache_set, AList.lookup_insert_eq_ite]
  rfl

/-- A key without a row is set in the cache only. -/
theorem configs_set_of_none (hrow : m.configs.find key = none) :
    (m.set json key value steps).1.configs = m.configs := by
  unfold set
  dsimp only
  split
  · rfl
  · simp [hrow]

/-- Setting a value keeps the agreement exactly when the cached value is what the
row says afterwards. -/
theorem agrees_set_iff (h : m.Agrees json)
    (htype : ∀ row ∈ m.configs.find key, value.hasType row.valueType = true) :
    (m.set json key value steps).1.Agrees json ↔ m.Keeps json (.set key value steps) := by
  rw [agrees_iff] at h ⊢
  cases hrow : m.configs.find key with
  | none =>
      refine iff_of_true (fun j row hj ↦ ?_) fun row hj ↦ ?_
      · rw [configs_set_of_none hrow] at hj
        have hne : j ≠ key := by
          rintro rfl
          rw [hrow] at hj
          cases hj
        rw [get_set, if_neg hne]
        exact h j row hj
      · rw [hrow] at hj
        cases hj
  | some config =>
      have htyped := htype config hrow
      have hother : ∀ j row, j ≠ key → m.configs.find j = some row →
          ConfigValue.SameResult row.valueType ((m.set json key value steps).1.get j)
            (some (parseValue json row.value row.valueType)) := by
        intro j row hne hj
        rw [get_set, if_neg hne]
        exact h j row hj
      have hkeeps : m.Keeps json (.set key value steps) ↔
          if steps = {} then ¬ value.IsWholeFloat
          else ConfigValue.SameResult config.valueType (some value)
            (some (parseValue json config.value config.valueType)) := by
        simp only [Keeps, hrow, Option.mem_some_iff, forall_eq']
      rw [hkeeps]
      rcases @set_cases json m config value key steps hrow with
        ⟨hsteps, -, hconfigs⟩ | ⟨hsteps, -, hconfigs⟩
      · rw [if_pos hsteps, ← @sameResult_parseValue_iff json _ _ htyped, hconfigs]
        constructor
        · intro hagrees
          have hself := hagrees key { config with value := valueStr json value } (by
            rw [Table.find_modify, if_pos rfl, hrow, Option.map_some])
          rwa [get_set, if_pos rfl] at hself
        · intro hself j row hj
          rw [Table.find_modify] at hj
          split_ifs at hj with hkey
          · subst hkey
            rw [hrow, Option.map_some, Option.some.injEq] at hj
            subst hj
            rwa [get_set, if_pos rfl]
          · exact hother j row hkey hj
      · rw [if_neg hsteps, hconfigs]
        constructor
        · intro hagrees
          have hself := hagrees key config hrow
          rwa [get_set, if_pos rfl] at hself
        · intro hself j row hj
          by_cases hkey : j = key
          · subst hkey
            obtain rfl := Option.some.inj (hrow.symm.trans hj)
            rwa [get_set, if_pos rfl]
          · exact hother j row hkey hj

/-- A load leaves an agreement, whether it succeeds or not. -/
theorem agrees_load (h : m.Agrees json) : (m.loadFromDb json steps).1.Agrees json := by
  obtain ⟨find, update⟩ := steps
  cases find with
  | some e => exact h
  | none => exact agrees_loadFromDb

/-- While cache and rows agree, a call that fails changes no value, if they agree
afterwards. -/
theorem unchanged_of_agrees (h : m.Agrees json) (h' : (m.apply json call).1.Agrees json)
    (hfailed : (m.apply json call).2.toBool = false) (hrow : row ∈ m.configs.rows) :
    ConfigValue.SameResult row.valueType ((m.apply json call).1.get row.key) (m.get row.key) := by
  have hfind := Table.mem_iff_find.mp hrow
  have hconfigs : (m.apply json call).1.configs = m.configs := by
    cases call with
    | load steps =>
        obtain ⟨find, update⟩ := steps
        cases find <;> rfl
    | set key value steps =>
        cases hkey : m.configs.find key with
        | none => exact configs_set_of_none hkey
        | some config =>
            rcases @set_cases json m config value key steps hkey with
              ⟨-, hok, -⟩ | ⟨-, -, hsame⟩
            · rw [apply, hok] at hfailed
              cases hfailed
            · exact hsame
  have hafter := agrees_iff.mp h' row.key row (by rw [hconfigs]; exact hfind)
  exact hafter.trans (agrees_iff.mp h row.key row hfind).symm

theorem promised_iff (h : m.Agrees json) :
    (∀ m' ∈ m.step json call, m.Promised json call m') ↔
      (m.WellTyped call → m.Keeps json call) := by
  unfold step
  split_ifs with htyped
  · simp only [Option.mem_some_iff, forall_eq', imp_iff_right htyped]
    have hagrees : (m.apply json call).1.Agrees json ↔ m.Keeps json call := by
      cases call with
      | load steps => exact iff_of_true (agrees_load h) trivial
      | set key value steps => exact agrees_set_iff h htyped
    rw [← hagrees]
    refine ⟨fun hpromised ↦ hpromised.1, fun hafter ↦ ⟨hafter, fun hfailed row hrow ↦ ?_⟩⟩
    exact unchanged_of_agrees h hafter hfailed hrow
  · exact iff_of_true (fun m' hm' ↦ by cases hm') fun h ↦ absurd h htyped

/-- What a row says is never what an empty cache gives. -/
theorem not_sameResult_parseValue (text valueType : String) :
    ¬ ConfigValue.SameResult valueType none (some (parseValue json text valueType)) := by
  have hnumber (n : Int64) : ¬ ConfigValue.SameResult "number" none (some (.number n)) := by
    intro h
    have hzero : (0 : Int64) = n := h.1 0
    have hone : (1 : Int64) = n := h.1 1
    exact absurd (hzero.trans hone.symm) (by decide)
  unfold parseValue
  split_ifs with htype hboolean hstring
  · subst htype
    split
    · exact hnumber _
    · split
      · next f _ =>
          intro h
          have hzero : (F64.ofInt 0).canonical = f.canonical := h.2 (.ofInt 0)
          have hone : (F64.ofInt 1).canonical = f.canonical := h.2 (.ofInt 1)
          exact absurd (hzero.trans hone.symm) (by decide +kernel)
      · exact hnumber 0
  · subst hboolean
    intro h
    have hfalse : false = (parseBool text).getD false := h false
    have htrue : true = (parseBool text).getD false := h true
    cases htrue.trans hfalse.symm
  all_goals
    intro h
    rw [ConfigValue.SameResult, if_neg htype, if_neg hboolean] at h
    have hempty := h ""
    have hblank := h " "
    exact absurd (hempty.trans hblank.symm) (by decide)

theorem agrees_new_iff {configs : Table SystemConfig} :
    (new configs).Agrees json ↔ configs.rows = [] := by
  constructor
  · intro h
    refine List.eq_nil_iff_forall_not_mem.mpr fun row hrow ↦ ?_
    exact not_sameResult_parseValue row.value row.valueType
      (agrees_iff.mp h row.key row (Table.mem_iff_find.mp hrow))
  · intro hempty row hrow
    have hrow : row ∈ configs.rows := hrow
    rw [hempty] at hrow
    cases hrow

/-- The rows of other keys stay as they are. -/
theorem find_set_of_ne {j : String} (hne : j ≠ key) :
    (m.set json key value steps).1.configs.find j = m.configs.find j := by
  cases hrow : m.configs.find key with
  | none => rw [configs_set_of_none hrow]
  | some config =>
      rcases @set_cases json m config value key steps hrow with ⟨-, -, hconfigs⟩ | ⟨-, -, hconfigs⟩
      · rw [hconfigs, Table.find_modify, if_neg hne]
      · rw [hconfigs]

/-- A row that has been written agrees with the cache, unless it is a whole float. -/
theorem agrees_written_iff (hrow : m.configs.find key = some row) (hsteps : steps = {})
    (htype : value.hasType row.valueType = true) :
    (∀ row', (m.set json key value steps).1.configs.find key = some row' →
      ConfigValue.SameResult row'.valueType ((m.set json key value steps).1.get key)
        (some (parseValue json row'.value row'.valueType))) ↔ ¬ value.IsWholeFloat := by
  rcases @set_cases json m row value key steps hrow with ⟨-, -, hconfigs⟩ | ⟨hfailed, -, -⟩
  · rw [← @sameResult_parseValue_iff json _ _ htype, hconfigs, get_set, if_pos rfl,
      Table.find_modify, if_pos rfl, hrow]
    simp only [Option.map_some, Option.some.injEq, forall_eq']
  · exact absurd hsteps hfailed

theorem promised_first_iff {configs : Table SystemConfig} (htyped : (new configs).WellTyped call) :
    (new configs).Promised json call ((new configs).apply json call).1 ↔ Starts configs call := by
  cases call with
  | load steps =>
      obtain ⟨find, update⟩ := steps
      cases find with
      | none => exact iff_of_true ⟨agrees_loadFromDb, fun hfailed ↦ by cases hfailed⟩ (.inl rfl)
      | some e =>
          change (new configs).Promised json _ (new configs) ↔ _
          constructor
          · exact fun h ↦ .inr (agrees_new_iff.mp h.1)
          · rintro (hfind | hempty)
            · cases hfind
            · exact ⟨agrees_new_iff.mpr hempty, fun _ row _ ↦ .refl⟩
  | set key value steps =>
      constructor
      · rintro ⟨hagrees, hfailed⟩ row hrow
        have hfind : configs.find row.key = some row := Table.mem_iff_find.mp hrow
        have hkey : row.key = key := by
          by_contra hne
          have hother := agrees_iff.mp hagrees row.key row ((find_set_of_ne hne).trans hfind)
          rw [apply, get_set, if_neg hne] at hother
          exact not_sameResult_parseValue _ _ hother
        subst hkey
        have hsteps : steps = {} := by
          rcases @set_cases json (new configs) row value row.key steps hfind with
            ⟨hsteps, -, -⟩ | ⟨-, herror, hconfigs⟩
          · exact hsteps
          · have hafter := agrees_iff.mp hagrees row.key row (by rw [apply, hconfigs]; exact hfind)
            have hbefore := hfailed herror row hrow
            exact (not_sameResult_parseValue _ _ (hbefore.symm.trans hafter)).elim
        exact ⟨rfl, hsteps, (agrees_written_iff hfind hsteps (htyped row hfind)).mp
          (agrees_iff.mp hagrees row.key)⟩
      · intro hstarts
        have hknown : ∀ row ∈ configs.rows, steps = {} := fun row hrow ↦ (hstarts row hrow).2.1
        refine ⟨agrees_iff.mpr fun j row' hrow' ↦ ?_, fun herror row hrow ↦ ?_⟩
        · by_cases hj : j = key
          · subst hj
            cases hfind : configs.find j with
            | none =>
                rw [apply, configs_set_of_none hfind] at hrow'
                cases hfind.symm.trans hrow'
            | some row =>
                obtain ⟨hmem, -⟩ := Table.find_eq_some.mp hfind
                obtain ⟨-, hsteps, hwhole⟩ := hstarts row hmem
                exact (agrees_written_iff hfind hsteps (htyped row hfind)).mpr hwhole row' hrow'
          · rw [apply, find_set_of_ne hj] at hrow'
            obtain ⟨hmem, hkey⟩ := Table.find_eq_some.mp hrow'
            exact absurd (hkey.symm.trans (hstarts row' hmem).1) hj
        · have hfind : configs.find key = some row := by
            rw [← (hstarts row hrow).1]
            exact Table.mem_iff_find.mp hrow
          rcases @set_cases json (new configs) row value key steps hfind with
            ⟨-, hok, -⟩ | ⟨hfailed, -, -⟩
          · rw [apply, hok] at herror
            cases herror
          · exact absurd (hknown row hrow) hfailed

end Agreement

/-- Cache and table agree after every call of a new manager, and errors change
nothing, exactly if the first call loads the table and each later one keeps the
agreement. -/
theorem promised_iff_keeps (configs : Table SystemConfig) (call : Call) (calls : List Call) :
    Within (step json) (fun m call ↦ ∀ m' ∈ m.step json call, m.Promised json call m')
        (new configs) (call :: calls) ↔
      ((new configs).WellTyped call → Starts configs call) ∧
        ∀ m ∈ (new configs).step json call,
          Within (step json) (fun m call ↦ m.WellTyped call → m.Keeps json call) m calls := by
  by_cases htyped : (new configs).WellTyped call
  · have hstep : (new configs).step json call = some ((new configs).apply json call).1 :=
      if_pos htyped
    rw [within_cons_iff hstep, imp_iff_right htyped]
    simp only [hstep, Option.mem_some_iff, forall_eq']
    rw [promised_first_iff htyped]
    refine and_congr_right fun hstarts ↦ ?_
    refine within_congr (P := Agrees json) (fun m call hm ↦ promised_iff hm) ?_
      ((promised_first_iff htyped).mpr hstarts).1
    exact fun m call m' _ hpromised hm' ↦ (hpromised m' hm').1
  · have hstep : (new configs).step json call = none := if_neg htyped
    refine iff_of_true ⟨fun m' hm' ↦ ?_, fun m hm ↦ ?_⟩ ⟨fun h ↦ absurd h htyped, fun m hm ↦ ?_⟩ <;>
      rw [hstep] at *
    all_goals contradiction

/-! ### Calls that break the agreement -/

def jsonEscape : List Char → List Char
  | [] => ['"']
  | c :: cs => if c = '"' ∨ c = '\\' then '\\' :: c :: jsonEscape cs else c :: jsonEscape cs

def jsonUnescape : List Char → Option (List Char)
  | [] => none
  | '\\' :: c :: cs => (jsonUnescape cs).map (c :: ·)
  | '"' :: cs => if cs = [] then some [] else none
  | c :: cs => (jsonUnescape cs).map (c :: ·)

theorem jsonUnescape_jsonEscape (cs : List Char) : jsonUnescape (jsonEscape cs) = some cs := by
  induction cs with
  | nil => rfl
  | cons c cs ih =>
      rw [jsonEscape]
      split
      · rw [jsonUnescape, ih, Option.map_some]
      · next hplain =>
          rw [not_or] at hplain
          rw [jsonUnescape, ih, Option.map_some]
          · exact fun _ _ h _ ↦ hplain.2 h
          · exact hplain.1

/-- JSON strings, as they are for texts without control characters. -/
def plainJson : JsonStrings where
  encode s := String.ofList ('"' :: jsonEscape s.toList)
  decode s :=
    match s.toList with
    | '"' :: cs => (jsonUnescape cs).map String.ofList
    | _ => none
  decode_encode s := by simp [jsonUnescape_jsonEscape]

def settings : Table SystemConfig where
  rows := [⟨"enable_registration", "false", "boolean"⟩, ⟨"health_check_interval", "15", "number"⟩]
  nodup := by decide

theorem promised_of_within {m₁ m₂ : ConfigManager} {call : Call}
    (h : Within (step json) (fun m call ↦ ∀ m' ∈ m.step json call, m.Promised json call m')
      (new settings) [.load {}, call])
    (hload : (new settings).step json (.load {}) = some m₁)
    (hcall : m₁.step json call = some m₂) : m₁.Promised json call m₂ :=
  (h.2 m₁ hload).1 m₂ hcall

/-- The cache says that users may register, although the row could not be
written; a whole number of seconds that was set as a float is a number after the
next load. -/
theorem not_promised_failed_update :
    ¬ Within (step plainJson)
        (fun m call ↦ ∀ m' ∈ m.step plainJson call, m.Promised plainJson call m') (new settings)
        [.load {}, .set "enable_registration" (.boolean true) ⟨none, some "database is locked"⟩] ∧
    ¬ Within (step plainJson)
        (fun m call ↦ ∀ m' ∈ m.step plainJson call, m.Promised plainJson call m') (new settings)
        [.load {}, .set "health_check_interval" (.float (.ofInt 30)) {}] := by
  constructor
  · intro h
    have hagrees := (promised_of_within plainJson h rfl rfl).1
    have hregister := hagrees ⟨"enable_registration", "false", "boolean"⟩ List.mem_cons_self false
    revert hregister
    decide
  · intro h
    have hagrees := (promised_of_within plainJson h rfl rfl).1
    have hinterval := hagrees ⟨"health_check_interval", "30", "number"⟩ (by decide +kernel)
    have hnumber := hinterval.1 0
    revert hnumber
    decide +kernel

end ConfigManager

end Oxiproxy.Controller
