import Oxiproxy.Common.Domain

/-!
# What is accepted as a domain

The names and patterns that the domain parser accepts, told from the string
itself, and when two accepted strings mean the same name.
-/

namespace Oxiproxy

open Net

/-! ## Surrounding whitespace -/

/-- `trim` on the characters. -/
def trimChars (cs : List Char) : List Char :=
  ((cs.dropWhile isWhitespace).reverse.dropWhile isWhitespace).reverse

@[simp] theorem toList_trim (s : String) : (trim s).toList = trimChars s.toList :=
  String.toList_ofList

theorem trimChars_append_left {before cs : List Char} (h : ∀ c ∈ before, isWhitespace c = true) :
    trimChars (before ++ cs) = trimChars cs := by
  unfold trimChars
  rw [List.dropWhile_append_of_pos h]

theorem dropWhile_eq_nil {cs : List Char} (h : ∀ c ∈ cs, isWhitespace c = true) :
    cs.dropWhile isWhitespace = [] := by
  rw [← List.append_nil cs, List.dropWhile_append_of_pos h, List.dropWhile_nil]

theorem trimChars_append_right {cs after : List Char} (h : ∀ c ∈ after, isWhitespace c = true) :
    trimChars (cs ++ after) = trimChars cs := by
  have hreverse : ∀ c ∈ after.reverse, isWhitespace c = true :=
    fun c hc ↦ h c (List.mem_reverse.mp hc)
  unfold trimChars
  rw [List.dropWhile_append]
  split_ifs with hempty
  · rw [List.isEmpty_iff.mp hempty, dropWhile_eq_nil h]
  · rw [List.reverse_append, List.dropWhile_append_of_pos hreverse]

/-- What is trimmed away is whitespace. -/
theorem exists_trimChars (cs : List Char) :
    ∃ before after, cs = before ++ trimChars cs ++ after ∧
      (∀ c ∈ before, isWhitespace c = true) ∧ ∀ c ∈ after, isWhitespace c = true := by
  refine ⟨cs.takeWhile isWhitespace,
    ((cs.dropWhile isWhitespace).reverse.takeWhile isWhitespace).reverse, ?_,
    fun c hc ↦ List.mem_takeWhile_imp hc,
    fun c hc ↦ List.mem_takeWhile_imp (List.mem_reverse.mp hc)⟩
  unfold trimChars
  rw [List.append_assoc, ← List.reverse_append, List.takeWhile_append_dropWhile,
    List.reverse_reverse, List.takeWhile_append_dropWhile]

theorem trimChars_eq_self {cs : List Char} (hhead : cs.head?.any isWhitespace = false)
    (hlast : cs.getLast?.any isWhitespace = false) : trimChars cs = cs := by
  have hdrop {cs : List Char} (h : cs.head?.any isWhitespace = false) :
      cs.dropWhile isWhitespace = cs := by
    cases cs with
    | nil => rfl
    | cons c cs => exact List.dropWhile_cons_of_neg (by simpa using h)
  unfold trimChars
  rw [hdrop hhead, hdrop (by rwa [List.head?_reverse]), List.reverse_reverse]

theorem getLast?_trimChars (cs : List Char) : (trimChars cs).getLast?.any isWhitespace = false := by
  unfold trimChars
  rw [List.getLast?_reverse]
  have h := List.head?_dropWhile_not isWhitespace (cs.dropWhile isWhitespace).reverse
  cases hhead : ((cs.dropWhile isWhitespace).reverse.dropWhile isWhitespace).head? with
  | none => rfl
  | some c =>
      rw [hhead] at h
      exact h

theorem trimChars_concat_dot (cs : List Char) :
    trimChars (cs ++ ['.']) = cs.dropWhile isWhitespace ++ ['.'] := by
  have hdot : isWhitespace '.' ≠ true := by decide
  have hdrop : (cs ++ ['.']).dropWhile isWhitespace = cs.dropWhile isWhitespace ++ ['.'] := by
    rw [List.dropWhile_append]
    split_ifs with hempty
    · rw [List.isEmpty_iff.mp hempty, List.dropWhile_cons_of_neg hdot, List.nil_append]
    · rfl
  unfold trimChars
  rw [hdrop, List.reverse_append, List.reverse_singleton, List.singleton_append,
    List.dropWhile_cons_of_neg hdot, List.reverse_cons, List.reverse_reverse]

theorem trimChars_dropWhile (cs : List Char) :
    trimChars (cs.dropWhile isWhitespace) = trimChars cs := by
  conv_rhs => rw [← List.takeWhile_append_dropWhile (p := isWhitespace) (l := cs)]
  exact (trimChars_append_left fun c hc ↦ List.mem_takeWhile_imp hc).symm

/-! ## Case and the final dot -/

theorem toLower_eq_self_or (c : Char) :
    c.toLower = c ∨ c.isUpper = true ∧ c.toLower.isLower = true := by
  by_cases hupper : c.isUpper = true
  · refine .inr ⟨hupper, ?_⟩
    rw [Char.isLower_toLower_eq_isAlpha, Char.isAlpha, hupper, Bool.true_or]
  · exact .inl (Char.toLower_eq_of_not_isUpper hupper)

theorem isWhitespace_of_letter {c : Char} (h : c.isUpper = true ∨ c.isLower = true) :
    isWhitespace c = false := by
  apply isWhitespace_of_isDomainChar
  have hle (a b : Char) : a ≤ b ↔ a.val ≤ b.val := Iff.rfl
  rcases h with h | h
  · simp only [Char.isUpper, decide_eq_true_eq] at h
    simp [isDomainChar, isAsciiAlphanumeric, hle]
    exact .inl (.inl (.inr h))
  · simp only [Char.isLower, Bool.and_eq_true, decide_eq_true_eq] at h
    simp [isDomainChar, isAsciiAlphanumeric, hle]
    exact .inl (.inl (.inl (.inr h)))

@[simp] theorem isWhitespace_toLower (c : Char) : isWhitespace c.toLower = isWhitespace c := by
  rcases toLower_eq_self_or c with h | ⟨hupper, hlower⟩
  · rw [h]
  · rw [isWhitespace_of_letter (.inl hupper), isWhitespace_of_letter (.inr hlower)]

/-- No other character has `d` as its lower case, unless `d` is a letter. -/
theorem toLower_eq_iff {c d : Char} (hlower : d.isLower = false) (hupper : d.isUpper = false) :
    c.toLower = d ↔ c = d := by
  constructor
  · rintro rfl
    rcases toLower_eq_self_or c with h | ⟨-, h⟩
    · exact h.symm
    · rw [hlower] at h
      cases h
  · rintro rfl
    exact Char.toLower_eq_of_not_isUpper (by simp [hupper])

theorem trimChars_map_toLower (cs : List Char) :
    trimChars (cs.map Char.toLower) = (trimChars cs).map Char.toLower := by
  have hcomp : isWhitespace ∘ Char.toLower = isWhitespace := funext isWhitespace_toLower
  unfold trimChars
  rw [List.dropWhile_map, hcomp, ← List.map_reverse, List.dropWhile_map, hcomp, ← List.map_reverse]

theorem stripTrailingDot_map_toLower (cs : List Char) :
    stripTrailingDot (cs.map Char.toLower) = (stripTrailingDot cs).map Char.toLower := by
  have hdot : (cs.map Char.toLower).getLast? = some '.' ↔ cs.getLast? = some '.' := by
    rw [List.getLast?_map, Option.map_eq_some_iff]
    constructor
    · rintro ⟨c, hc, hlower⟩
      rw [hc, (toLower_eq_iff (by decide) (by decide)).mp hlower]
    · exact fun h ↦ ⟨'.', h, rfl⟩
  unfold stripTrailingDot
  by_cases hlast : cs.getLast? = some '.'
  · rw [if_pos hlast, if_pos (hdot.mpr hlast), List.map_dropLast]
  · rw [if_neg hlast, if_neg (mt hdot.mp hlast)]

theorem exists_stripTrailingDot (cs : List Char) :
    ∃ dot, (dot = [] ∨ dot = ['.']) ∧ cs = stripTrailingDot cs ++ dot := by
  unfold stripTrailingDot
  split_ifs with hlast
  · exact ⟨['.'], .inr rfl, (List.dropLast_append_getLast? _ hlast).symm⟩
  · exact ⟨[], .inl rfl, (List.append_nil cs).symm⟩

theorem stripTrailingDot_concat (cs : List Char) : stripTrailingDot (cs ++ ['.']) = cs := by
  unfold stripTrailingDot
  rw [if_pos List.getLast?_concat, List.dropLast_concat]

/-- `s` is `core` within whitespace and with at most one dot after it. -/
def Dressed (core : List Char) (s : String) : Prop :=
  ∃ before dot after, s.toList = before ++ core ++ dot ++ after ∧ (dot = [] ∨ dot = ['.']) ∧
    (∀ c ∈ before, isWhitespace c = true) ∧ ∀ c ∈ after, isWhitespace c = true

theorem dressed_stripTrailingDot (s : String) :
    Dressed (stripTrailingDot (trimChars s.toList)) s := by
  obtain ⟨before, after, hsplit, hbefore, hafter⟩ := exists_trimChars s.toList
  obtain ⟨dot, hdot, hstrip⟩ := exists_stripTrailingDot (trimChars s.toList)
  refine ⟨before, dot, after, ?_, hdot, hbefore, hafter⟩
  rw [List.append_assoc before, ← hstrip, ← hsplit]

/-! ## Names -/

/-- A value without its surrounding whitespace and one final dot, in lower case. -/
def canonical (value : String) : String :=
  String.ofList ((stripTrailingDot (trim value).toList).map Char.toLower)

structure IsLabel (label : List Char) : Prop where
  nonempty : 1 ≤ label.length
  short : label.length ≤ 63
  chars : ∀ c ∈ label, isAsciiAlphanumeric c = true ∨ c = '-'
  head : label.head? ≠ some '-'
  last : label.getLast? ≠ some '-'

structure IsDomainName (name : String) : Prop where
  nonempty : 1 ≤ name.utf8ByteSize
  short : name.utf8ByteSize ≤ 253
  labels : ∀ label ∈ splitOn '.' name.toList, IsLabel label
  notIp : IpAddr.parse name = none

/-- A domain name, or one below a single leading `*.`. -/
def IsRoutePattern (pattern : String) : Prop :=
  IsDomainName pattern ∨
    ∃ suffix, pattern = "*." ++ suffix ∧ IsDomainName suffix ∧ pattern.utf8ByteSize ≤ 253

theorem utf8ByteSize_eq_length {label : List Char}
    (h : ∀ c ∈ label, isAsciiAlphanumeric c = true ∨ c = '-') :
    (String.ofList label).utf8ByteSize = label.length := by
  rw [String.utf8ByteSize_ofList]
  induction label with
  | nil => rfl
  | cons c label ih =>
      have hle (a b : Char) : a ≤ b ↔ a.val ≤ b.val := Iff.rfl
      have hascii : c.utf8Size = 1 := by
        rw [Char.utf8Size_eq_one_iff]
        rcases h c List.mem_cons_self with halnum | rfl
        · simp only [isAsciiAlphanumeric, Bool.or_eq_true, Bool.and_eq_true, decide_eq_true_eq,
            hle] at halnum
          rcases halnum with (⟨-, h⟩ | ⟨-, h⟩) | ⟨-, h⟩ <;>
            exact UInt32.le_trans h (by decide)
        · decide
      rw [String.utf8Len_cons, ih fun c hc ↦ h c (List.mem_cons_of_mem _ hc), hascii,
        List.length_cons]

theorem invalidLabel_eq_false_iff {label : List Char} :
    invalidLabel label = false ↔ IsLabel label := by
  have hchars : (label.all fun c ↦ isAsciiAlphanumeric c || c == '-') = true ↔
      ∀ c ∈ label, isAsciiAlphanumeric c = true ∨ c = '-' := by
    simp only [List.all_eq_true, Bool.or_eq_true, beq_iff_eq]
  unfold invalidLabel
  simp only [Bool.or_eq_false_iff, Bool.not_eq_false', hchars, decide_eq_false_iff_not, not_lt,
    List.isEmpty_eq_false_iff, beq_eq_false_iff_ne]
  constructor
  · rintro ⟨⟨⟨⟨hne, hsize⟩, hhead⟩, hlast⟩, hchars⟩
    rw [utf8ByteSize_eq_length hchars] at hsize
    exact ⟨List.length_pos_of_ne_nil hne, hsize, hchars, hhead, hlast⟩
  · intro h
    rw [utf8ByteSize_eq_length h.chars]
    exact ⟨⟨⟨⟨List.ne_nil_of_length_pos h.nonempty, h.short⟩, h.head⟩, h.last⟩, h.chars⟩

theorem normalizeDomain_eq_ok_iff {value name : String} :
    normalizeDomain value = .ok name ↔ canonical value = name ∧ IsDomainName name := by
  have hvalid (name : String) : (name.isEmpty || 253 < name.utf8ByteSize ||
      (IpAddr.parse name).isSome || (splitOn '.' name.toList).any invalidLabel) = false ↔
        IsDomainName name := by
    simp only [Bool.or_eq_false_iff, decide_eq_false_iff_not, not_lt, Option.isSome_eq_false_iff,
      Option.isNone_iff_eq_none, List.any_eq_false, Bool.not_eq_true, invalidLabel_eq_false_iff]
    constructor
    · rintro ⟨⟨⟨hempty, hsize⟩, hip⟩, hlabels⟩
      refine ⟨Nat.pos_of_ne_zero fun h ↦ ?_, hsize, hlabels, hip⟩
      rw [String.utf8ByteSize_eq_zero_iff.mp h] at hempty
      cases hempty
    · intro h
      refine ⟨⟨⟨?_, h.short⟩, h.notIp⟩, h.labels⟩
      cases hempty : name.isEmpty with
      | false => rfl
      | true =>
          have hsize := h.nonempty
          rw [String.isEmpty_iff.mp hempty] at hsize
          cases hsize
  unfold normalizeDomain canonical
  generalize String.ofList ((stripTrailingDot (trim value).toList).map Char.toLower) = normal
  dsimp only
  constructor
  · intro h
    split_ifs at h with hinvalid
    obtain rfl := Except.ok.inj h
    exact ⟨rfl, (hvalid _).mp (Bool.not_eq_true _ ▸ hinvalid)⟩
  · rintro ⟨rfl, hname⟩
    rw [(hvalid _).mpr hname]
    rfl

theorem IsDomainName.isDomainChar {name : String} (h : IsDomainName name) {c : Char}
    (hc : c ∈ name.toList) : isDomainChar c = true := by
  have hpart : c = '.' ∨ ∃ label ∈ splitOn '.' name.toList, c ∈ label := mem_splitOn hc
  rcases hpart with rfl | ⟨label, hlabel, hc⟩
  · decide
  · rcases (h.labels label hlabel).chars c hc with halnum | rfl
    · simp [Oxiproxy.isDomainChar, halnum]
    · decide

theorem IsDomainName.ne_nil {name : String} (h : IsDomainName name) : name.toList ≠ [] := by
  intro hnil
  have hsize := h.nonempty
  rw [String.toList_eq_nil_iff.mp hnil] at hsize
  cases hsize

theorem IsDomainName.getLast?_ne {name : String} (h : IsDomainName name) :
    name.toList.getLast? ≠ some '.' := by
  intro hlast
  have hfront : name.toList.dropLast ++ ['.'] = name.toList :=
    List.dropLast_append_getLast? _ hlast
  have hmem : [] ∈ splitOn '.' name.toList := by
    rw [← hfront, splitOn_append_sep]
    exact List.mem_append_right _ List.mem_cons_self
  exact absurd (h.labels [] hmem).nonempty (by decide)

theorem IsRoutePattern.isWhitespace_eq_false {pattern : String} (h : IsRoutePattern pattern)
    {c : Char} (hc : c ∈ pattern.toList) : isWhitespace c = false := by
  rcases h with h | ⟨suffix, rfl, h, -⟩
  · exact isWhitespace_of_isDomainChar (h.isDomainChar hc)
  · rw [String.toList_append, List.mem_append] at hc
    rcases hc with hc | hc
    · have hc : c = '*' ∨ c = '.' := by simpa using hc
      rcases hc with rfl | rfl <;> decide
    · exact isWhitespace_of_isDomainChar (h.isDomainChar hc)

theorem IsRoutePattern.getLast?_ne {pattern : String} (h : IsRoutePattern pattern) :
    pattern.toList.getLast? ≠ some '.' := by
  rcases h with h | ⟨suffix, rfl, h, -⟩
  · exact h.getLast?_ne
  · rw [String.toList_append, List.getLast?_append_of_ne_nil _ h.ne_nil]
    exact h.getLast?_ne

/-! ## Patterns -/

@[simp] theorem toList_canonical (value : String) :
    (canonical value).toList = (stripTrailingDot (trimChars value.toList)).map Char.toLower := by
  rw [canonical, String.toList_ofList, toList_trim]

theorem stripTrailingDot_cons {c : Char} {cs : List Char} (h : cs ≠ []) :
    stripTrailingDot (c :: cs) = c :: stripTrailingDot cs := by
  unfold stripTrailingDot
  rw [List.getLast?_cons_of_ne_nil h]
  split_ifs
  · exact List.dropLast_cons_of_ne_nil h
  · rfl

theorem toList_wildcard (suffix : String) : ("*." ++ suffix).toList = '*' :: '.' :: suffix.toList := by
  rw [String.toList_append]
  rfl

/-- The form of a value that begins with `*.` once trimmed. -/
theorem canonical_wildcard {value : String} {suffix : List Char}
    (h : trimChars value.toList = '*' :: '.' :: suffix) (hne : suffix ≠ []) :
    (canonical value).toList = '*' :: '.' :: (stripTrailingDot suffix).map Char.toLower := by
  rw [toList_canonical, h, stripTrailingDot_cons (List.cons_ne_nil _ _), stripTrailingDot_cons hne]
  rfl

/-- Only whitespace and a dot are left out. -/
theorem count_canonical (value : String) :
    (canonical value).toList.count '*' = value.toList.count '*' := by
  obtain ⟨before, dot, after, hvalue, hdot, hbefore, hafter⟩ := dressed_stripTrailingDot value
  have hblank {cs : List Char} (h : ∀ c ∈ cs, isWhitespace c = true) : cs.count '*' = 0 :=
    List.count_eq_zero.mpr fun hstar ↦ absurd (h _ hstar) (by decide)
  have hstop : dot.count '*' = 0 := by
    rcases hdot with rfl | rfl <;> rfl
  have hlower (cs : List Char) : (cs.map Char.toLower).count '*' = cs.count '*' := by
    unfold List.count
    rw [List.countP_map]
    refine List.countP_congr fun c _ ↦ ?_
    simp only [Function.comp_apply, beq_iff_eq, toLower_eq_iff (d := '*') (by decide) (by decide)]
  conv_rhs => rw [hvalue]
  rw [toList_canonical, hlower]
  simp only [List.count_append, hblank hbefore, hblank hafter, hstop, Nat.zero_add, Nat.add_zero]

theorem trimChars_suffix {value : String} {suffix : List Char}
    (h : trimChars value.toList = '*' :: '.' :: suffix)
    (hhead : suffix.head?.any isWhitespace = false) : trimChars suffix = suffix := by
  refine trimChars_eq_self hhead ?_
  have hlast := getLast?_trimChars value.toList
  rw [h] at hlast
  cases suffix with
  | nil => rfl
  | cons c suffix => exact hlast

/-- The first characters of a form that is not of a name are those of the value. -/
theorem exists_wildcard {value suffix : String} (h : canonical value = "*." ++ suffix) :
    ∃ rest, trimChars value.toList = '*' :: '.' :: rest := by
  have hlist := congrArg String.toList h
  obtain ⟨dot, -, hdot⟩ := exists_stripTrailingDot (trimChars value.toList)
  rw [toList_canonical, toList_wildcard, List.map_eq_cons_iff] at hlist
  obtain ⟨star, tail, hstrip, hstar, htail⟩ := hlist
  obtain ⟨stop, tail, rfl, hstop, -⟩ := List.map_eq_cons_iff.mp htail
  rw [toLower_eq_iff (by decide) (by decide)] at hstar hstop
  subst hstar hstop
  rw [hstrip] at hdot
  exact ⟨tail ++ dot, hdot⟩

theorem head?_of_stripTrailingDot {cs : List Char} {domain : String}
    (h : (stripTrailingDot cs).map Char.toLower = domain.toList) (hname : IsDomainName domain) :
    cs.head?.any isWhitespace = false := by
  obtain ⟨dot, -, hdot⟩ := exists_stripTrailingDot cs
  cases hstrip : stripTrailingDot cs with
  | nil =>
      rw [hstrip] at h
      exact (hname.ne_nil h.symm).elim
  | cons c rest =>
      rw [hstrip] at h hdot
      have hmem : c.toLower ∈ domain.toList := h ▸ List.mem_cons_self
      have hspace := isWhitespace_of_isDomainChar (hname.isDomainChar hmem)
      rw [isWhitespace_toLower] at hspace
      rw [hdot]
      exact hspace

theorem normalizePattern_eq_ok_iff {value pattern : String} :
    normalizePattern value = .ok pattern ↔ canonical value = pattern ∧ IsRoutePattern pattern := by
  unfold normalizePattern
  rw [toList_trim]
  split
  · next suffix hvalue =>
      constructor
      · intro h
        split_ifs at h with hspace
        split at h
        · cases h
        · next domain hdomain =>
            split_ifs at h with hsize
            obtain rfl := Except.ok.inj h
            obtain ⟨hcanonical, hname⟩ := normalizeDomain_eq_ok_iff.mp hdomain
            have hcanonical := congrArg String.toList hcanonical
            rw [toList_canonical, String.toList_ofList,
              trimChars_suffix hvalue (Bool.not_eq_true _ ▸ hspace)] at hcanonical
            have hne : suffix ≠ [] := by
              rintro rfl
              exact hname.ne_nil hcanonical.symm
            refine ⟨?_, .inr ⟨domain, rfl, hname, ?_⟩⟩
            · apply String.toList_inj.mp
              rw [canonical_wildcard hvalue hne, hcanonical, toList_wildcard]
            · rw [String.utf8ByteSize_append]
              exact (Nat.add_comm _ _).le.trans (not_lt.mp hsize)
      · rintro ⟨hcanonical, hname | ⟨domain, rfl, hname, hsize⟩⟩
        · have hstar : '*' ∈ pattern.toList := by
            rw [← hcanonical, toList_canonical, hvalue, stripTrailingDot_cons (List.cons_ne_nil _ _)]
            exact List.mem_cons_self
          exact absurd (hname.isDomainChar hstar) (by decide)
        · have hlist := congrArg String.toList hcanonical
          have hne : suffix ≠ [] := by
            rintro rfl
            rw [toList_canonical, hvalue, toList_wildcard] at hlist
            cases hlist
          rw [canonical_wildcard hvalue hne, toList_wildcard] at hlist
          have hlist : (stripTrailingDot suffix).map Char.toLower = domain.toList :=
            (List.cons.inj (List.cons.inj hlist).2).2
          have hhead : suffix.head?.any isWhitespace = false :=
            head?_of_stripTrailingDot hlist hname
          have hdomain : normalizeDomain (String.ofList suffix) = .ok domain := by
            refine normalizeDomain_eq_ok_iff.mpr ⟨String.toList_inj.mp ?_, hname⟩
            rw [toList_canonical, String.toList_ofList, trimChars_suffix hvalue hhead, hlist]
          have hsize : ¬ 253 < domain.utf8ByteSize + 2 := by
            rw [String.utf8ByteSize_append] at hsize
            exact not_lt.mpr ((Nat.add_comm _ _).le.trans hsize)
          rw [hhead, hdomain]
          simp only [if_neg hsize]
          rfl
  · next hvalue =>
      rw [normalizeDomain_eq_ok_iff]
      refine and_congr_right fun hcanonical ↦ ⟨.inl, ?_⟩
      rintro (hname | ⟨suffix, rfl, -⟩)
      · exact hname
      · obtain ⟨rest, hrest⟩ := exists_wildcard hcanonical
        exact (hvalue rest hrest).elim

/-- An accepted value has at most one `*`, the one of a leading `*.`. -/
theorem count_star_of_normalizePattern {value pattern : String}
    (h : normalizePattern value = .ok pattern) :
    value.toList.count '*' ≤ 1 ∧
      ('*' ∈ value.toList → ∃ suffix, pattern = "*." ++ suffix ∧ IsDomainName suffix) := by
  obtain ⟨rfl, hpattern⟩ := normalizePattern_eq_ok_iff.mp h
  have hcount : value.toList.count '*' = (canonical value).toList.count '*' :=
    (count_canonical value).symm
  have hname {name : String} (h : IsDomainName name) : name.toList.count '*' = 0 :=
    List.count_eq_zero.mpr fun hstar ↦ absurd (h.isDomainChar hstar) (by decide)
  rcases hpattern with hdomain | ⟨suffix, hsuffix, hdomain, -⟩
  · rw [hname hdomain] at hcount
    exact ⟨by omega, fun hstar ↦ (List.count_eq_zero.mp hcount hstar).elim⟩
  · rw [hsuffix, toList_wildcard, List.count_cons_self, List.count_cons_of_ne (by decide),
      hname hdomain] at hcount
    exact ⟨by omega, fun _ ↦ ⟨suffix, hsuffix, hdomain⟩⟩

/-! ## Equal results -/

/-- The strings differ only in surrounding whitespace, case and one final dot. -/
def DifferInForm (s t : String) : Prop :=
  ∃ core core' : List Char, core.map Char.toLower = core'.map Char.toLower ∧
    Dressed core s ∧ Dressed core' t

/-- The form of an accepted value is already determined by what is dressed. -/
theorem Dressed.canonical_eq {core : List Char} {s : String} (h : Dressed core s)
    (hpattern : IsRoutePattern (canonical s)) :
    (canonical s).toList = stripTrailingDot (trimChars (core.map Char.toLower)) := by
  obtain ⟨before, dot, after, hs, hdot, hbefore, hafter⟩ := h
  have htrim : trimChars s.toList = trimChars (core ++ dot) := by
    rw [hs, trimChars_append_right hafter, List.append_assoc, trimChars_append_left hbefore]
  rw [trimChars_map_toLower, stripTrailingDot_map_toLower]
  rcases hdot with rfl | rfl
  · rw [toList_canonical, htrim, List.append_nil]
  · -- before the dot there is nothing left to trim
    have hcanonical : (canonical s).toList = (core.dropWhile isWhitespace).map Char.toLower := by
      rw [toList_canonical, htrim, trimChars_concat_dot, stripTrailingDot_concat]
    rw [← trimChars_dropWhile]
    generalize core.dropWhile isWhitespace = rest at hcanonical ⊢
    have hblank : ∀ c ∈ rest, isWhitespace c = false := by
      intro c hc
      have hmem : c.toLower ∈ (canonical s).toList := hcanonical ▸ List.mem_map_of_mem hc
      rw [← isWhitespace_toLower]
      exact hpattern.isWhitespace_eq_false hmem
    have hlast : rest.getLast? ≠ some '.' := by
      intro hlast
      refine hpattern.getLast?_ne ?_
      rw [hcanonical, List.getLast?_map, hlast]
      rfl
    have hsame : trimChars rest = rest := by
      refine trimChars_eq_self ?_ ?_ <;> rw [Option.any_eq_false]
      · exact fun c hc ↦ hblank c (List.mem_of_head? hc)
      · exact fun c hc ↦ hblank c (List.mem_of_getLast? hc)
    rw [hsame, stripTrailingDot, if_neg hlast, hcanonical]

/-- Equal forms of accepted values, told by the values. -/
theorem canonical_eq_iff {s t : String} (hs : IsRoutePattern (canonical s))
    (ht : IsRoutePattern (canonical t)) : canonical s = canonical t ↔ DifferInForm s t := by
  constructor
  · intro h
    refine ⟨_, _, ?_, dressed_stripTrailingDot s, dressed_stripTrailingDot t⟩
    rw [← toList_canonical, ← toList_canonical, h]
  · rintro ⟨core, core', hcore, hdressed, hdressed'⟩
    apply String.toList_inj.mp
    rw [hdressed.canonical_eq hs, hdressed'.canonical_eq ht, hcore]

/-- Domain normalisation: what is accepted and what is returned. -/
theorem normalize_correct :
    (∀ value name, normalizeDomain value = .ok name ↔ canonical value = name ∧ IsDomainName name) ∧
      (∀ value pattern, normalizePattern value = .ok pattern ↔
        canonical value = pattern ∧ IsRoutePattern pattern) ∧
      (∀ value pattern, normalizePattern value = .ok pattern → value.toList.count '*' ≤ 1 ∧
        ('*' ∈ value.toList → ∃ suffix, pattern = "*." ++ suffix ∧ IsDomainName suffix)) ∧
      (∀ value name, normalizeDomain value = .ok name → normalizeDomain name = .ok name) ∧
      (∀ value pattern, normalizePattern value = .ok pattern →
        normalizePattern pattern = .ok pattern) ∧
      (∀ s t name name', normalizeDomain s = .ok name → normalizeDomain t = .ok name' →
        (name = name' ↔ DifferInForm s t)) ∧
      ∀ s t pattern pattern', normalizePattern s = .ok pattern → normalizePattern t = .ok pattern' →
        (pattern = pattern' ↔ DifferInForm s t) := by
  refine ⟨fun _ _ ↦ normalizeDomain_eq_ok_iff, fun _ _ ↦ normalizePattern_eq_ok_iff,
    fun _ _ ↦ count_star_of_normalizePattern, fun _ _ ↦ normalizeDomain_idempotent,
    fun _ _ ↦ normalizePattern_idempotent, fun s t name name' hs ht ↦ ?_,
    fun s t pattern pattern' hs ht ↦ ?_⟩
  · obtain ⟨rfl, hname⟩ := normalizeDomain_eq_ok_iff.mp hs
    obtain ⟨rfl, hname'⟩ := normalizeDomain_eq_ok_iff.mp ht
    exact canonical_eq_iff (.inl hname) (.inl hname')
  · obtain ⟨rfl, hpattern⟩ := normalizePattern_eq_ok_iff.mp hs
    obtain ⟨rfl, hpattern'⟩ := normalizePattern_eq_ok_iff.mp ht
    exact canonical_eq_iff hpattern hpattern'

/-- One pattern written in two ways. -/
theorem normalize_correct_wildcard : DifferInForm " *.Yunnet.TOP." "*.yunnet.top" := by
  have hform := normalize_correct.2.2.2.2.2.2 " *.Yunnet.TOP." "*.yunnet.top" "*.yunnet.top"
    "*.yunnet.top" (by decide +kernel) (by decide +kernel)
  exact hform.mp rfl

end Oxiproxy
