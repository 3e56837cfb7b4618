import Oxiproxy.Common.Domain

/-!
# Hop-by-hop headers

A message that the node passes on loses the headers that concern a single
connection: a fixed list of them, and those that its `Connection` header names.
The header map belongs to a third-party crate and is a parameter.
-/

namespace Oxiproxy.Node

/-- A byte that may occur in a header value. -/
def isHeaderByte (b : UInt8) : Bool := (32 ≤ b && b != 127) || b == 9

structure HeaderValue where
  bytes : List UInt8
  valid : bytes.all isHeaderByte = true
  deriving DecidableEq

/-- The values of each header in their order, under names in lower case. -/
class HeaderMap (M : Type) where
  getAll : M → String → List HeaderValue
  /-- Drop all values of a header. -/
  remove : M → String → M
  /-- Put one value in the place of all that a header had. -/
  insert : M → String → HeaderValue → M

open HeaderMap

class LawfulHeaderMap (M : Type) [HeaderMap M] : Prop where
  getAll_remove : ∀ (headers : M) (name other : String),
    getAll (remove headers name) other = if other = name then [] else getAll headers other
  getAll_insert : ∀ (headers : M) (name : String) (value : HeaderValue) (other : String),
    getAll (insert headers name value) other = if other = name then [value] else getAll headers other

namespace HeaderValue

/-- Each byte as the character of its number. -/
def chars (value : HeaderValue) : List Char := value.bytes.map fun b ↦ Char.ofNat b.toNat

/-- Visible ASCII, or a tab. -/
def isVisibleAscii (b : UInt8) : Bool := (32 ≤ b && b < 127) || b == 9

/-- `HeaderValue::to_str` -/
def toStr (value : HeaderValue) : Option String :=
  if value.bytes.all isVisibleAscii then some (String.ofList value.chars) else none

def ofStr (text : String) : Option HeaderValue :=
  if h : text.toUTF8.data.toList.all isHeaderByte then some ⟨text.toUTF8.data.toList, h⟩ else none

end HeaderValue

def hopHeaders : List String :=
  ["connection", "keep-alive", "proxy-authenticate", "proxy-authorization", "te", "trailer",
    "transfer-encoding", "upgrade"]

def toAsciiLowercase (s : String) : String := String.ofList (s.toList.map Char.toLower)

def upgradeValue : HeaderValue := ⟨[117, 112, 103, 114, 97, 100, 101], by decide⟩

section Strip

variable {M : Type} [HeaderMap M]

/-- The names in the values of `Connection` that are text. -/
def connectionNames (headers : M) : List String :=
  ((getAll headers "connection").filterMap HeaderValue.toStr).flatMap fun value ↦
    (splitOn ',' value.toList).map fun name ↦ toAsciiLowercase (trim (String.ofList name))

def removeNames (headers : M) (names : List String) : M := names.foldl remove headers

def stripHopHeaders (headers : M) (upgrade : Bool) : M :=
  let names := (connectionNames headers).filter fun name ↦ !upgrade || name != "upgrade"
  let headers := removeNames headers names
  let hops := hopHeaders.filter fun name ↦ !upgrade || !(name == "connection" || name == "upgrade")
  let headers := removeNames headers hops
  if upgrade then insert headers "connection" upgradeValue else headers

end Strip

/-! ## Tokens -/

def isOptionalSpace (c : Char) : Bool := c == ' ' || c == '\t'

/-- A token without the space around it, in lower case. -/
def normalToken (cs : List Char) : String :=
  String.ofList ((((cs.dropWhile isOptionalSpace).reverse.dropWhile isOptionalSpace).reverse).map
    Char.toLower)

/-- The comma-separated tokens of a value, whatever its bytes. -/
def HeaderValue.tokens (value : HeaderValue) : List String := (splitOn ',' value.chars).map normalToken

/-- The header is named by a token of a `Connection` value. -/
def NamedByConnection {M : Type} [HeaderMap M] (headers : M) (name : String) : Prop :=
  ∃ value ∈ getAll headers "connection", name ∈ value.tokens

instance {M : Type} [HeaderMap M] (headers : M) (name : String) :
    Decidable (NamedByConnection headers name) :=
  inferInstanceAs (Decidable (∃ value ∈ getAll headers "connection", name ∈ value.tokens))

theorem mem_of_mem_splitOn {sep c : Char} {cs part : List Char} (hpart : part ∈ splitOn sep cs)
    (hc : c ∈ part) : c ∈ cs := by
  induction cs generalizing part with
  | nil =>
      rw [splitOn, List.mem_singleton] at hpart
      rwa [hpart] at hc
  | cons a cs ih =>
      obtain ⟨head, parts, hsplit⟩ := List.exists_cons_of_ne_nil (splitOn_ne_nil sep cs)
      rw [hsplit] at ih
      unfold splitOn at hpart
      rw [hsplit] at hpart
      split_ifs at hpart
      · rcases List.mem_cons.mp hpart with rfl | hpart
        · cases hc
        · exact List.mem_cons_of_mem a (ih hpart hc)
      · rcases List.mem_cons.mp hpart with rfl | hpart
        · rcases List.mem_cons.mp hc with rfl | hc
          · exact List.mem_cons_self
          · exact List.mem_cons_of_mem a (ih List.mem_cons_self hc)
        · exact List.mem_cons_of_mem a (ih (List.mem_cons_of_mem head hpart) hc)

/-- In visible ASCII the only white space is a blank or a tab. -/
theorem isWhitespace_of_visible {b : UInt8} (h : HeaderValue.isVisibleAscii b = true) :
    isWhitespace (Char.ofNat b.toNat) = isOptionalSpace (Char.ofNat b.toNat) := by
  revert b
  decide +kernel

theorem dropWhile_congr {α : Type*} {p q : α → Bool} {l : List α} (h : ∀ a ∈ l, p a = q a) :
    l.dropWhile p = l.dropWhile q := by
  induction l with
  | nil => rfl
  | cons a l ih =>
      have hrest := ih fun b hb ↦ h b (List.mem_cons_of_mem a hb)
      rw [List.dropWhile_cons, List.dropWhile_cons, h a List.mem_cons_self, hrest]

theorem normalToken_eq {cs : List Char} (h : ∀ c ∈ cs, isWhitespace c = isOptionalSpace c) :
    toAsciiLowercase (trim (String.ofList cs)) = normalToken cs := by
  have hfront : cs.dropWhile isWhitespace = cs.dropWhile isOptionalSpace := dropWhile_congr h
  have hback : ∀ c ∈ (cs.dropWhile isOptionalSpace).reverse, isWhitespace c = isOptionalSpace c := by
    intro c hc
    exact h c ((List.dropWhile_sublist _).subset (List.mem_reverse.mp hc))
  simp only [toAsciiLowercase, trim, normalToken, String.toList_ofList, hfront,
    dropWhile_congr hback]

theorem HeaderValue.toStr_eq_some {value : HeaderValue} {text : String}
    (h : value.toStr = some text) :
    text = String.ofList value.chars ∧
      ∀ c ∈ value.chars, isWhitespace c = isOptionalSpace c := by
  unfold toStr at h
  split_ifs at h with hvisible
  refine ⟨(Option.some.inj h).symm, fun c hc ↦ ?_⟩
  obtain ⟨b, hb, rfl⟩ := List.mem_map.mp hc
  exact isWhitespace_of_visible (List.all_eq_true.mp hvisible b hb)

/-- The code reads the tokens of a value that is text. -/
theorem HeaderValue.tokens_eq {value : HeaderValue} {text : String}
    (h : value.toStr = some text) :
    (splitOn ',' text.toList).map (fun name ↦ toAsciiLowercase (trim (String.ofList name))) =
      value.tokens := by
  obtain ⟨rfl, hspace⟩ := toStr_eq_some h
  rw [tokens, String.toList_ofList]
  refine List.map_congr_left fun part hpart ↦ normalToken_eq fun c hc ↦ ?_
  exact hspace c (mem_of_mem_splitOn hpart hc)

section Correct

variable {M : Type} [HeaderMap M] {headers : M} {upgrade : Bool} {name : String}

theorem mem_connectionNames :
    name ∈ connectionNames headers ↔
      ∃ value ∈ getAll headers "connection", value.toStr ≠ none ∧ name ∈ value.tokens := by
  simp only [connectionNames, List.mem_flatMap, List.mem_filterMap]
  constructor
  · rintro ⟨text, ⟨value, hvalue, htext⟩, hname⟩
    rw [HeaderValue.tokens_eq htext] at hname
    exact ⟨value, hvalue, by simp [htext], hname⟩
  · rintro ⟨value, hvalue, htext, hname⟩
    obtain ⟨text, htext⟩ := Option.ne_none_iff_exists'.mp htext
    rw [← HeaderValue.tokens_eq htext] at hname
    exact ⟨text, ⟨value, hvalue, htext⟩, hname⟩

variable [LawfulHeaderMap M]

open LawfulHeaderMap

theorem getAll_removeNames (headers : M) (names : List String) (name : String) :
    getAll (removeNames headers names) name =
      if name ∈ names then [] else getAll headers name := by
  induction names generalizing headers with
  | nil => rfl
  | cons first names ih =>
      unfold removeNames at ih ⊢
      rw [List.foldl_cons, ih, getAll_remove]
      by_cases hfirst : name = first <;> by_cases hrest : name ∈ names <;> simp [hfirst, hrest]

/-- What is left under each name. -/
theorem getAll_stripHopHeaders (headers : M) (upgrade : Bool) (name : String) :
    getAll (stripHopHeaders headers upgrade) name =
      if upgrade = true ∧ name = "connection" then [upgradeValue]
      else if upgrade = true ∧ name = "upgrade" then getAll headers name
      else if name ∈ hopHeaders ∨ name ∈ connectionNames headers then []
      else getAll headers name := by
  cases upgrade with
  | false =>
      simp only [stripHopHeaders, Bool.not_false, Bool.true_or, List.filter_true,
        getAll_removeNames, Bool.false_eq_true, if_false, false_and]
      by_cases hhop : name ∈ hopHeaders <;> simp [hhop]
  | true =>
      have hhops : (hopHeaders.filter fun name ↦
          !true || !(name == "connection" || name == "upgrade")) =
            ["keep-alive", "proxy-authenticate", "proxy-authorization", "te", "trailer",
              "transfer-encoding"] := by decide
      have hconnection : "connection" ∈ hopHeaders := by decide
      simp only [stripHopHeaders, hhops, getAll_removeNames, if_true, getAll_insert, true_and,
        List.mem_filter]
      by_cases hname : name = "connection"
      · simp [hname]
      · by_cases hup : name = "upgrade"
        · simp [hup]
        · have hhop : name ∈ hopHeaders ↔ name ∈ ["keep-alive", "proxy-authenticate",
              "proxy-authorization", "te", "trailer", "transfer-encoding"] := by
            simp [hopHeaders, hname, hup]
          rw [if_neg hname, if_neg hname, if_neg hup]
          by_cases hlisted : name ∈ hopHeaders
          · rw [if_pos (hhop.mp hlisted), if_pos (.inl hlisted)]
          · rw [if_neg (mt hhop.mpr hlisted)]
            simp [hlisted, hup]

/-- The headers of the list and those that `Connection` names are gone, but for
an upgrade; all others are as they were. -/
def Stripped (headers stripped : M) (upgrade : Bool) : Prop :=
  ∀ name, getAll stripped name =
    if upgrade = true ∧ name = "connection" then [upgradeValue]
    else if upgrade = true ∧ name = "upgrade" then getAll headers name
    else if name ∈ hopHeaders ∨ NamedByConnection headers name then []
    else getAll headers name

/-- A header is stripped as it should be exactly if every one that is named by a
`Connection` value of other bytes than visible ASCII would be stripped anyway. -/
theorem stripped_iff (headers : M) (upgrade : Bool) :
    Stripped headers (stripHopHeaders headers upgrade) upgrade ↔
      ∀ value ∈ getAll headers "connection", value.toStr = none → ∀ name ∈ value.tokens,
        name ∈ hopHeaders ∨ name ∈ connectionNames headers ∨ getAll headers name = [] := by
  constructor
  · intro hstripped value hvalue _ name hname
    have hafter := hstripped name
    rw [getAll_stripHopHeaders] at hafter
    by_contra hleft
    push Not at hleft
    obtain ⟨hhop, hnames, hpresent⟩ := hleft
    have hconnection : name ≠ "connection" := by
      rintro rfl
      exact hhop (by decide)
    have hup : name ≠ "upgrade" := by
      rintro rfl
      exact hhop (by decide)
    have hnamed : NamedByConnection headers name := ⟨value, hvalue, hname⟩
    simp only [hconnection, hup, hhop, hnames, hnamed, and_false, or_false, if_false, or_true,
      if_true] at hafter
    exact hpresent hafter
  · intro hread name
    rw [getAll_stripHopHeaders]
    by_cases hlisted : name ∈ hopHeaders
    · simp [hlisted]
    · by_cases hread' : name ∈ connectionNames headers
      · obtain ⟨value, hvalue, -, hname⟩ := mem_connectionNames.mp hread'
        have hnamed : NamedByConnection headers name := ⟨value, hvalue, hname⟩
        simp [hread', hnamed]
      · by_cases hnamed : NamedByConnection headers name
        · obtain ⟨value, hvalue, hname⟩ := hnamed
          have hopaque : value.toStr = none := by
            by_contra htext
            exact hread' (mem_connectionNames.mpr ⟨value, hvalue, htext, hname⟩)
          rcases hread value hvalue hopaque name hname with hhop | hnames | habsent
          · exact (hlisted hhop).elim
          · exact (hread' hnames).elim
          · simp [habsent]
        · simp [hlisted, hread', hnamed]

end Correct

/-! ## Fields in a list -/

/-- The fields of a message in their order. -/
abbrev HeaderFields := List (String × HeaderValue)

instance : HeaderMap HeaderFields where
  getAll fields name := (fields.filter (·.1 = name)).map Prod.snd
  remove fields name := fields.filter (·.1 ≠ name)
  insert fields name value := fields.filter (·.1 ≠ name) ++ [(name, value)]

theorem filter_field (fields : HeaderFields) (name other : String) :
    ((fields.filter (·.1 ≠ name)).filter (·.1 = other)).map Prod.snd =
      if other = name then [] else (fields.filter (·.1 = other)).map Prod.snd := by
  rw [List.filter_filter]
  by_cases h : other = name
  · have hnone : fields.filter (fun f ↦ decide (f.1 = other) && decide (f.1 ≠ name)) = [] := by
      simp [h]
    rw [hnone, if_pos h, List.map_nil]
  · rw [if_neg h]
    refine congrArg (List.map Prod.snd) (List.filter_congr fun f _ ↦ ?_)
    by_cases hf : f.1 = other
    · simp [hf, h]
    · simp [hf]

instance : LawfulHeaderMap HeaderFields where
  getAll_remove := filter_field
  getAll_insert fields name value other := by
    change ((fields.filter (·.1 ≠ name) ++ [(name, value)]).filter (·.1 = other)).map Prod.snd =
      if other = name then [value] else (fields.filter (·.1 = other)).map Prod.snd
    rw [List.filter_append, List.map_append, filter_field]
    by_cases h : other = name
    · simp [h]
    · simp [h, Ne.symm h]

/-- `Connection: x-hop, close` beside headers of both kinds. -/
def textFields : HeaderFields :=
  [("host", ⟨[97], by decide⟩), ("connection", ⟨"x-hop, close".toUTF8.data.toList, by decide⟩),
    ("x-hop", ⟨[49], by decide⟩)]

/-- `Connection: x-hop, ` with a byte after it that is not text. -/
def opaqueFields : HeaderFields :=
  [("connection", ⟨"x-hop,".toUTF8.data.toList ++ [255], by decide⟩), ("x-hop", ⟨[49], by decide⟩)]

theorem stripped_iff_textFields :
    Stripped textFields (stripHopHeaders textFields false) false ∧
      stripHopHeaders textFields false = [("host", ⟨[97], by decide⟩)] := by
  refine ⟨(stripped_iff textFields false).mpr ?_, by decide +kernel⟩
  decide +kernel

theorem not_stripped_opaqueFields :
    ¬ Stripped opaqueFields (stripHopHeaders opaqueFields false) false := by
  intro hstripped
  have hleft : getAll (stripHopHeaders opaqueFields false) "x-hop" ≠ [] := by decide +kernel
  have hnamed : NamedByConnection opaqueFields "x-hop" := by decide +kernel
  refine hleft ((hstripped "x-hop").trans ?_)
  simp [hnamed]

end Oxiproxy.Node
