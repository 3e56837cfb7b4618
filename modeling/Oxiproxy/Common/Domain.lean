import Oxiproxy.Common.Net
import Oxiproxy.Common.Rust

/-!
# Domains and routes

DNS names and wildcard patterns of the shared HTTP and TLS listeners, in the
normal form under which they are stored and compared.
-/

namespace Oxiproxy

open Net

def isAsciiAlphanumeric (c : Char) : Bool :=
  ('0' ≤ c && c ≤ '9') || ('a' ≤ c && c ≤ 'z') || ('A' ≤ c && c ≤ 'Z')

/-- A label that a domain name may not contain. -/
def invalidLabel (label : List Char) : Bool :=
  label.isEmpty || 63 < (String.ofList label).utf8ByteSize || label.head? == some '-' ||
    label.getLast? == some '-' || !label.all fun c ↦ isAsciiAlphanumeric c || c == '-'

/-- Drop one trailing dot. -/
def stripTrailingDot (cs : List Char) : List Char :=
  if cs.getLast? = some '.' then cs.dropLast else cs

def invalidDomainMessage : String :=
  "请输入有效域名（不含协议、路径、端口或通配符；国际化域名请使用 Punycode）"

def normalizeDomain (value : String) : Except String String :=
  let value := String.ofList ((stripTrailingDot (trim value).toList).map Char.toLower)
  if value.isEmpty || 253 < value.utf8ByteSize || (IpAddr.parse value).isSome ||
      (splitOn '.' value.toList).any invalidLabel then
    .error invalidDomainMessage
  else .ok value

/-- Route patterns permit a single leading `*.`. -/
def normalizePattern (value : String) : Except String String :=
  match (trim value).toList with
  | '*' :: '.' :: suffix =>
      if suffix.head?.any isWhitespace then .error "通配符与域名之间不能包含空格"
      else
        match normalizeDomain (String.ofList suffix) with
        | .error e => .error e
        | .ok suffix =>
            if 253 < suffix.utf8ByteSize + 2 then .error "通配符域名过长"
            else .ok ("*." ++ suffix)
  | _ => normalizeDomain value

def validateRoute (kind domain : String) : Except String String :=
  if kind = "http" ∨ kind = "https" then normalizePattern domain
  else if kind = "tcp" ∨ kind = "udp" then
    if domain.isEmpty then .ok "" else .error "TCP/UDP 代理不能配置域名"
  else .error "代理类型必须为 tcp、udp、http 或 https"

/-- Two routes of one port conflict unless they are of one kind with distinct
domains. -/
def routesConflict (kind domain otherKind otherDomain : String) : Bool :=
  !(kind == "http" || kind == "https") || kind != otherKind || domain == otherDomain

/-- The wildcard patterns that match a name, the longest suffix first. -/
def wildcards : List Char → List String
  | [] => []
  | c :: cs => if c = '.' then ("*" ++ String.ofList (c :: cs)) :: wildcards cs else wildcards cs

/-- Exact names win, then the longest wildcard suffix. -/
def findRoute {T : Type*} (routes : AList fun _ : String ↦ T) (domain : String) : Option T :=
  match routes.lookup domain with
  | some route => some route
  | none => (wildcards domain.toList).findSome? routes.lookup

theorem findRoute_congr {T : Type*} {routes routes' : AList fun _ : String ↦ T}
    (h : ∀ domain, routes.lookup domain = routes'.lookup domain) (domain : String) :
    findRoute routes domain = findRoute routes' domain := by
  have hlookup : (fun d ↦ routes.lookup d) = fun d ↦ routes'.lookup d := funext h
  unfold findRoute
  rw [h domain]
  simp only [hlookup]

example : (normalizePattern " *.Yunnet.TOP. ").toOption = some "*.yunnet.top" := by
  decide +kernel

example : (normalizeDomain "127.0.0.1").toOption = none := by decide +kernel

/-! ## Normal forms -/

theorem splitOn_append_sep (sep : Char) (cs : List Char) :
    splitOn sep (cs ++ [sep]) = splitOn sep cs ++ [[]] := by
  induction cs with
  | nil => simp [splitOn]
  | cons c cs ih =>
      obtain ⟨part, parts, hsplit⟩ := List.exists_cons_of_ne_nil (splitOn_ne_nil sep cs)
      by_cases hc : c = sep
      · simp [splitOn, hc, ih]
      · simp [splitOn, hc, ih, hsplit]

theorem mem_splitOn {sep c : Char} {cs : List Char} (hc : c ∈ cs) :
    c = sep ∨ ∃ part ∈ splitOn sep cs, c ∈ part := by
  induction cs with
  | nil => cases hc
  | cons a cs ih =>
      obtain ⟨head, parts, hsplit⟩ := List.exists_cons_of_ne_nil (splitOn_ne_nil sep cs)
      rw [hsplit] at ih
      by_cases ha : a = sep
      · have hcons : splitOn sep (a :: cs) = [] :: head :: parts := by simp [splitOn, ha, hsplit]
        rw [hcons]
        rcases List.mem_cons.mp hc with rfl | hc
        · exact .inl ha
        · rcases ih hc with hsep | ⟨part, hpart, hmem⟩
          · exact .inl hsep
          · exact .inr ⟨part, List.mem_cons_of_mem _ hpart, hmem⟩
      · have hcons : splitOn sep (a :: cs) = (a :: head) :: parts := by simp [splitOn, ha, hsplit]
        rw [hcons]
        rcases List.mem_cons.mp hc with rfl | hc
        · exact .inr ⟨c :: head, List.mem_cons_self, List.mem_cons_self⟩
        · rcases ih hc with hsep | ⟨part, hpart, hmem⟩
          · exact .inl hsep
          rcases List.mem_cons.mp hpart with rfl | hpart
          · exact .inr ⟨a :: part, List.mem_cons_self, List.mem_cons_of_mem _ hmem⟩
          · exact .inr ⟨part, List.mem_cons_of_mem _ hpart, hmem⟩

/-- A character of a normal domain name. -/
def isDomainChar (c : Char) : Bool := isAsciiAlphanumeric c || c == '-' || c == '.'

theorem isWhitespace_of_isDomainChar {c : Char} (h : isDomainChar c = true) :
    isWhitespace c = false := by
  have hle (a b : Char) : a ≤ b ↔ a.toNat ≤ b.toNat := Iff.rfl
  have hbounds : 0x2D ≤ c.toNat ∧ c.toNat ≤ 0x7A := by
    simp only [isDomainChar, isAsciiAlphanumeric, Bool.or_eq_true, Bool.and_eq_true,
      decide_eq_true_eq, beq_iff_eq, hle] at h
    rcases h with (((⟨h₁, h₂⟩ | ⟨h₁, h₂⟩) | ⟨h₁, h₂⟩) | rfl) | rfl
    · exact ⟨le_trans (by decide) h₁, le_trans h₂ (by decide)⟩
    · exact ⟨le_trans (by decide) h₁, le_trans h₂ (by decide)⟩
    · exact ⟨le_trans (by decide) h₁, le_trans h₂ (by decide)⟩
    · decide
    · decide
  obtain ⟨hlow, hhigh⟩ := hbounds
  simp [isWhitespace]
  omega

theorem trim_eq_self {s : String} (h : ∀ c ∈ s.toList, isWhitespace c = false) : trim s = s := by
  have hdrop : ∀ cs : List Char, (∀ c ∈ cs, isWhitespace c = false) →
      cs.dropWhile isWhitespace = cs := by
    intro cs hcs
    cases cs with
    | nil => rfl
    | cons c cs => simp [hcs c List.mem_cons_self]
  unfold trim
  rw [hdrop s.toList h, hdrop _ (fun c hc ↦ h c (List.mem_reverse.mp hc)), List.reverse_reverse]
  simp

/-- What a normal domain name is made of. -/
theorem normalizeDomain_eq_ok {value domain : String} (h : normalizeDomain value = .ok domain) :
    (∀ c ∈ domain.toList, isDomainChar c = true ∧ c.toLower = c) ∧
      domain.toList.getLast? ≠ some '.' ∧ domain.isEmpty = false ∧ domain.utf8ByteSize ≤ 253 ∧
        (IpAddr.parse domain).isSome = false ∧
          (splitOn '.' domain.toList).any invalidLabel = false := by
  simp only [normalizeDomain] at h
  generalize hdomain :
    String.ofList ((stripTrailingDot (trim value).toList).map Char.toLower) = normal at h
  split_ifs at h with hinvalid
  obtain rfl := Except.ok.inj h
  simp only [Bool.or_eq_true, decide_eq_true_eq, not_or, not_lt, Bool.not_eq_true] at hinvalid
  obtain ⟨⟨⟨hempty, hsize⟩, hip⟩, hlabels⟩ := hinvalid
  have hlabel : ∀ label ∈ splitOn '.' normal.toList, invalidLabel label = false := by
    simpa using hlabels
  refine ⟨fun c hc ↦ ⟨?_, ?_⟩, ?_, hempty, hsize, hip, hlabels⟩
  · have hpart : c = '.' ∨ ∃ label ∈ splitOn '.' normal.toList, c ∈ label := mem_splitOn hc
    rcases hpart with rfl | ⟨label, hmem, hc⟩
    · decide
    · have hvalid := hlabel label hmem
      simp only [invalidLabel, Bool.or_eq_false_iff, Bool.not_eq_false', List.all_eq_true] at hvalid
      have hchar := hvalid.2 c hc
      simp only [Bool.or_eq_true] at hchar
      rcases hchar with halnum | hdash
      · simp [isDomainChar, halnum]
      · simp [isDomainChar, hdash]
  · have hmap : c ∈ (stripTrailingDot (trim value).toList).map Char.toLower := by
      simpa [← hdomain] using hc
    obtain ⟨a, -, rfl⟩ := List.mem_map.mp hmap
    exact Char.toLower_toLower_eq_toLower a
  · intro hlast
    obtain ⟨front, hfront⟩ : ∃ front, normal.toList = front ++ ['.'] :=
      ⟨_, (List.dropLast_append_getLast? _ hlast).symm⟩
    have hmem : [] ∈ splitOn '.' normal.toList := by
      rw [hfront, splitOn_append_sep]
      exact List.mem_append_right _ (List.mem_singleton_self _)
    exact absurd (hlabel [] hmem) (by decide)

theorem normalizeDomain_idempotent {value domain : String}
    (h : normalizeDomain value = .ok domain) : normalizeDomain domain = .ok domain := by
  obtain ⟨hchars, hlast, hempty, hsize, hip, hlabels⟩ := normalizeDomain_eq_ok h
  have htrim : trim domain = domain :=
    trim_eq_self fun c hc ↦ isWhitespace_of_isDomainChar (hchars c hc).1
  have hlower : domain.toList.map Char.toLower = domain.toList :=
    (List.map_congr_left fun c hc ↦ (hchars c hc).2).trans (List.map_id _)
  have hsame : String.ofList ((stripTrailingDot (trim domain).toList).map Char.toLower) = domain := by
    rw [htrim, stripTrailingDot, if_neg hlast, hlower, String.ofList_toList]
  have hsize : ¬ 253 < domain.utf8ByteSize := not_lt.mpr hsize
  simp only [normalizeDomain, hsame, hempty, hsize, hip, hlabels]
  rfl

/-- A pattern that was accepted is its own normal form. -/
theorem normalizePattern_idempotent {value pattern : String}
    (h : normalizePattern value = .ok pattern) : normalizePattern pattern = .ok pattern := by
  unfold normalizePattern at h
  split at h
  · rename_i suffix hsuffix
    split_ifs at h with hspace
    split at h
    · cases h
    · rename_i domain hdomain
      split_ifs at h with hsize
      cases h
      obtain ⟨hchars, -⟩ := normalizeDomain_eq_ok hdomain
      have htrim : trim ("*." ++ domain) = "*." ++ domain := by
        apply trim_eq_self
        intro c hc
        simp only [String.toList_append, List.mem_append] at hc
        rcases hc with hc | hc
        · have hc : c = '*' ∨ c = '.' := by simpa using hc
          rcases hc with rfl | rfl <;> decide
        · exact isWhitespace_of_isDomainChar (hchars c hc).1
      have hhead : domain.toList.head?.any isWhitespace = false := by
        cases hlist : domain.toList with
        | nil => rfl
        | cons c cs =>
            exact isWhitespace_of_isDomainChar (hchars c (by rw [hlist]; exact List.mem_cons_self)).1
      have hlist : (trim ("*." ++ domain)).toList = '*' :: '.' :: domain.toList := by
        rw [htrim, String.toList_append]
        rfl
      unfold normalizePattern
      rw [hlist]
      simp only [hhead, String.ofList_toList, normalizeDomain_idempotent hdomain, hsize]
      rfl
  · have hidem := normalizeDomain_idempotent h
    obtain ⟨hchars, -⟩ := normalizeDomain_eq_ok h
    have htrim : trim pattern = pattern :=
      trim_eq_self fun c hc ↦ isWhitespace_of_isDomainChar (hchars c hc).1
    unfold normalizePattern
    rw [htrim]
    split
    · rename_i suffix hlist
      have hstar : isDomainChar '*' = true :=
        (hchars '*' (by rw [hlist]; exact List.mem_cons_self)).1
      exact absurd hstar (by decide)
    · exact hidem

end Oxiproxy
