import Oxiproxy.Common.NormalForms
import Oxiproxy.Common.RouteLookup
import Oxiproxy.Controller.PortLimiter

/-!
# The language of port ranges

A grammar of the texts that restrict the ports of users and nodes: numbers and
intervals between commas, with the ports that they open.
-/

namespace Oxiproxy.Controller

def Blank (cs : List Char) : Prop := ∀ c ∈ cs, isWhitespace c = true

/-- The digits of a number of 16 bits. -/
structure Numeral (cs : List Char) (n : ℕ) : Prop where
  nonempty : cs ≠ []
  digits : ∀ c ∈ cs, c.isDigit = true
  value : Nat.ofDigitChars 10 cs 0 = n
  bound : n < 65536

/-- A number, which may have a plus sign. -/
inductive Signed : List Char → ℕ → Prop
  | plain {cs n} (h : Numeral cs n) : Signed cs n
  | plus {cs n} (h : Numeral cs n) : Signed ('+' :: cs) n

/-- Up to surrounding blanks. -/
def Padded (P : List Char → Prop) (cs : List Char) : Prop :=
  ∃ before core after, cs = before ++ core ++ after ∧ Blank before ∧ Blank after ∧ P core

/-- A number, or two numbers around a hyphen, with the ports from the first to the last. -/
inductive Item (number : List Char → ℕ → Prop) : List Char → ℕ → ℕ → Prop
  | single {cs n} (h : number cs n) : Item number cs n n
  | interval {first last lo hi} (hfirst : number first lo) (hlast : number last hi)
      (hle : lo ≤ hi) : Item number (first ++ '-' :: last) lo hi

/-- Items and blanks between commas. -/
inductive Listing (item : List Char → ℕ → ℕ → Prop) : List Char → List (ℕ × ℕ) → Prop
  | blank {cs} (h : Blank cs) : Listing item cs []
  | item {cs lo hi} (h : item cs lo hi) : Listing item cs [(lo, hi)]
  | comma {front back items items'} (hfront : Listing item front items)
      (hback : Listing item back items') :
      Listing item (front ++ ',' :: back) (items ++ items')

/-- An item whose blanks and signs are at its numbers. -/
def PortItem : List Char → ℕ → ℕ → Prop :=
  Item fun cs n ↦ Padded (Signed · n) cs

/-- An item whose blanks are around it, and whose numbers are digits only. -/
def StrictItem (cs : List Char) (lo hi : ℕ) : Prop :=
  Padded (Item Numeral · lo hi) cs

/-! ## Numbers -/

section Numbers

variable {cs : List Char} {n : ℕ}

theorem parseDigits_eq_some_iff :
    parseDigits cs = some n ↔
      cs ≠ [] ∧ (∀ c ∈ cs, c.isDigit = true) ∧ Nat.ofDigitChars 10 cs 0 = n := by
  cases cs with
  | nil => simp [parseDigits]
  | cons c cs =>
      have hvalue : (c :: cs).foldl (fun n c ↦ n * 10 + (c.toNat - '0'.toNat)) 0 =
          Nat.ofDigitChars 10 (c :: cs) 0 := by
        simp only [Nat.ofDigitChars_eq_foldl, Nat.mul_comm]
      rw [← List.all_eq_true]
      simp only [parseDigits, hvalue]
      split_ifs with hall
      · simp only [hall, Option.some.injEq, true_and, ne_eq, reduceCtorEq, not_false_eq_true]
      · simp only [hall, reduceCtorEq, false_and, and_false]

theorem isDigit_plus : '+'.isDigit = false := by decide

/-- What a port is parsed from. -/
theorem parseUnsigned_eq_some_iff :
    parseUnsigned 65536 (String.ofList cs) = some n ↔ Signed cs n := by
  have hplain {digits : List Char} :
      (parseDigits digits).filter (· < 65536) = some n ↔ Numeral digits n := by
    rw [Option.filter_eq_some_iff, parseDigits_eq_some_iff, decide_eq_true_eq]
    exact ⟨fun ⟨⟨hnil, hdigits, hvalue⟩, hn⟩ ↦ ⟨hnil, hdigits, hvalue, hn⟩,
      fun h ↦ ⟨⟨h.nonempty, h.digits, h.value⟩, h.bound⟩⟩
  unfold parseUnsigned
  rw [String.toList_ofList]
  dsimp only
  split
  · next digits =>
      rw [hplain]
      refine ⟨Signed.plus, fun h ↦ ?_⟩
      cases h with
      | plain h =>
          have hplus := h.digits '+' List.mem_cons_self
          rw [isDigit_plus] at hplus
          exact absurd hplus Bool.false_ne_true
      | plus h => exact h
  · next hne =>
      rw [hplain]
      refine ⟨Signed.plain, fun h ↦ ?_⟩
      cases h with
      | plain h => exact h
      | plus h => exact (hne _ rfl).elim

theorem Signed.bound (h : Signed cs n) : n < 65536 := by
  cases h with
  | plain h => exact h.bound
  | plus h => exact h.bound

theorem Signed.mem (h : Signed cs n) : ∀ c ∈ cs, c.isDigit = true ∨ c = '+' := by
  cases h with
  | plain h => exact fun c hc ↦ .inl (h.digits c hc)
  | plus h =>
      intro c hc
      rcases List.mem_cons.mp hc with rfl | hc
      · exact .inr rfl
      · exact .inl (h.digits c hc)

theorem isWhitespace_of_isDigit {c : Char} (hc : c.isDigit = true) : isWhitespace c = false := by
  have hle (a b : Char) : a ≤ b ↔ a.val ≤ b.val := Iff.rfl
  apply isWhitespace_of_isDomainChar
  simp only [Char.isDigit, Bool.and_eq_true, decide_eq_true_eq] at hc
  simp [isDomainChar, isAsciiAlphanumeric, hle]
  exact .inl (.inl (.inl (.inl hc)))

end Numbers

/-! ## Blanks -/

section Blanks

variable {P : List Char → Prop} {cs first last : List Char} {n lo hi : ℕ}

theorem trim_ofList (cs : List Char) : trim (String.ofList cs) = String.ofList (trimChars cs) := by
  rw [trim, String.toList_ofList]
  rfl

theorem trimChars_of_forall (h : ∀ c ∈ cs, isWhitespace c = false) : trimChars cs = cs := by
  refine trimChars_eq_self ?_ ?_
  · rw [Option.any_eq_false]
    intro c hc
    rw [h c (List.mem_of_head? hc)]
  · rw [Option.any_eq_false]
    intro c hc
    rw [h c (List.mem_of_getLast? hc)]

/-- Without blanks inside, the blanks around are what is trimmed. -/
theorem padded_iff (h : ∀ core, P core → trimChars core = core) :
    Padded P cs ↔ P (trimChars cs) := by
  constructor
  · rintro ⟨before, core, after, rfl, hbefore, hafter, hcore⟩
    rw [List.append_assoc, trimChars_append_left hbefore, trimChars_append_right hafter,
      h core hcore]
    exact hcore
  · intro hcore
    obtain ⟨before, after, hcs, hbefore, hafter⟩ := exists_trimChars cs
    exact ⟨before, trimChars cs, after, hcs, hbefore, hafter, hcore⟩

theorem Signed.trimChars_eq (h : Signed cs n) : trimChars cs = cs := by
  refine trimChars_of_forall fun c hc ↦ ?_
  rcases h.mem c hc with hdigit | rfl
  · exact isWhitespace_of_isDigit hdigit
  · decide

theorem padded_signed_iff : Padded (Signed · n) cs ↔ Signed (trimChars cs) n :=
  padded_iff fun _ ↦ Signed.trimChars_eq

/-- The characters of a number with blanks around it. -/
theorem mem_of_padded (h : Padded (Signed · n) cs) :
    ∀ c ∈ cs, isWhitespace c = true ∨ c.isDigit = true ∨ c = '+' := by
  obtain ⟨before, core, after, rfl, hbefore, hafter, hcore⟩ := h
  intro c hc
  rcases List.mem_append.mp hc with hc | hc
  · rcases List.mem_append.mp hc with hc | hc
    · exact .inl (hbefore c hc)
    · exact .inr (hcore.mem c hc)
  · exact .inl (hafter c hc)

theorem hyphen_notMem (h : Padded (Signed · n) cs) : '-' ∉ cs := by
  intro hc
  rcases mem_of_padded h '-' hc with h | h | h <;> exact absurd h (by decide)

theorem comma_notMem (h : PortItem cs lo hi) : ',' ∉ cs := by
  have hnumber {cs : List Char} {n : ℕ} (h : Padded (Signed · n) cs) : ',' ∉ cs := by
    intro hc
    rcases mem_of_padded h ',' hc with h | h | h <;> exact absurd h (by decide)
  cases h with
  | single h => exact hnumber h
  | interval hfirst hlast hle =>
      have hhyphen : ',' ≠ '-' := by decide
      simp only [List.mem_append, List.mem_cons, hhyphen, false_or, not_or]
      exact ⟨hnumber hfirst, hnumber hlast⟩

theorem dropWhile_append_cons {c : Char} (hc : isWhitespace c = false) (xs ys : List Char) :
    (xs ++ c :: ys).dropWhile isWhitespace = xs.dropWhile isWhitespace ++ c :: ys := by
  have hdrop : (c :: ys).dropWhile isWhitespace = c :: ys :=
    List.dropWhile_cons_of_neg (by rw [hc]; exact Bool.false_ne_true)
  rw [List.dropWhile_append]
  split_ifs with hempty
  · rw [List.isEmpty_iff.mp hempty, hdrop, List.nil_append]
  · rfl

/-- The blanks inside an interval stay. -/
theorem trimChars_append_cons {c : Char} (hc : isWhitespace c = false) (xs ys : List Char) :
    trimChars (xs ++ c :: ys) = xs.dropWhile isWhitespace ++ c :: ys.rdropWhile isWhitespace := by
  unfold trimChars List.rdropWhile
  rw [dropWhile_append_cons hc, List.reverse_append, List.reverse_cons, List.append_assoc,
    List.singleton_append, dropWhile_append_cons hc, List.reverse_append, List.reverse_cons,
    List.reverse_reverse, List.append_assoc, List.singleton_append]

theorem mem_of_mem_trimChars {c : Char} (h : c ∈ trimChars cs) : c ∈ cs := by
  obtain ⟨before, after, hcs, -⟩ := exists_trimChars cs
  rw [hcs]
  exact List.mem_append_left _ (List.mem_append_right _ h)

theorem trimChars_rdropWhile (cs : List Char) :
    trimChars (cs.rdropWhile isWhitespace) = trimChars cs := by
  conv_rhs => rw [← List.rdropWhile_append_rtakeWhile (p := isWhitespace) (l := cs)]
  refine (trimChars_append_right fun c hc ↦ ?_).symm
  exact List.mem_takeWhile_imp (List.mem_reverse.mp hc)

end Blanks

/-! ## Items -/

section Items

variable {cs first last : List Char} {port : UInt16} {range : PortRange} {message : String}

theorem parsePort_eq_ok_iff :
    parsePort (String.ofList cs) message = .ok port ↔ Signed cs port.toNat := by
  unfold parsePort
  cases hparse : parseUnsigned 65536 (String.ofList cs) with
  | none =>
      refine ⟨nofun, fun h ↦ ?_⟩
      rw [parseUnsigned_eq_some_iff.mpr h] at hparse
      cases hparse
  | some n =>
      have hn := parseUnsigned_eq_some_iff.mp hparse
      dsimp only
      rw [Except.ok.injEq]
      constructor
      · rintro rfl
        rwa [UInt16.toNat_ofNat_of_lt' hn.bound]
      · intro h
        rw [parseUnsigned_eq_some_iff.mpr h, Option.some.injEq] at hparse
        rw [← hparse, UInt16.ofNat_toNat]

theorem parsePort_trim_eq_ok_iff :
    parsePort (trim (String.ofList cs)) message = .ok port ↔
      Padded (Signed · port.toNat) cs := by
  rw [trim_ofList, parsePort_eq_ok_iff, padded_signed_iff]

theorem parsePortRange_single {part : String} (hsplit : splitOn '-' part.toList = [cs]) :
    parsePortRange part = .ok range ↔
      Signed cs range.start.toNat ∧ range.stop = range.start := by
  unfold parsePortRange
  simp only [hsplit, List.map_cons, List.map_nil, bind_eq_ok, parsePort_eq_ok_iff]
  constructor
  · rintro ⟨port, hport, h⟩
    cases h
    exact ⟨hport, rfl⟩
  · rintro ⟨hport, hstop⟩
    exact ⟨range.start, hport, congrArg Except.ok (PortRange.mk.injEq .. ▸ ⟨rfl, hstop.symm⟩)⟩

theorem parsePortRange_interval {part : String}
    (hsplit : splitOn '-' part.toList = [first, last]) :
    parsePortRange part = .ok range ↔
      Padded (Signed · range.start.toNat) first ∧ Padded (Signed · range.stop.toNat) last ∧
        range.start.toNat ≤ range.stop.toNat := by
  unfold parsePortRange
  simp only [hsplit, List.map_cons, List.map_nil, bind_eq_ok, parsePort_trim_eq_ok_iff]
  constructor
  · rintro ⟨start, hstart, stop, hstop, h⟩
    split_ifs at h with hlt
    cases h
    exact ⟨hstart, hstop, Nat.not_lt.mp fun hlt' ↦ hlt (UInt16.lt_iff_toNat_lt.mpr hlt')⟩
  · rintro ⟨hstart, hstop, hle⟩
    refine ⟨range.start, hstart, range.stop, hstop, ?_⟩
    rw [if_neg fun hlt ↦ Nat.not_lt.mpr hle (UInt16.lt_iff_toNat_lt.mp hlt)]

/-- What is accepted between two commas. -/
theorem parsePortRange_eq_ok_iff :
    parsePortRange (String.ofList (trimChars cs)) = .ok range ↔
      PortItem cs range.start.toNat range.stop.toNat := by
  have hlist : (String.ofList (trimChars cs)).toList = trimChars cs := String.toList_ofList
  constructor
  · intro h
    obtain ⟨before, after, hcs, hbefore, hafter⟩ := exists_trimChars cs
    obtain ⟨first, parts, hsplit⟩ := List.exists_cons_of_ne_nil (splitOn_ne_nil '-' (trimChars cs))
    rcases parts with _ | ⟨last, _ | ⟨part, parts⟩⟩
    · rw [parsePortRange_single (hlist.symm ▸ hsplit)] at h
      obtain ⟨hport, hstop⟩ := h
      rw [← splitOn_eq_singleton hsplit, ← padded_signed_iff] at hport
      rw [hstop]
      exact .single hport
    · rw [parsePortRange_interval (hlist.symm ▸ hsplit)] at h
      obtain ⟨hstart, hstop, hle⟩ := h
      obtain ⟨rest, hrest, hlast⟩ := exists_of_splitOn_eq_cons hsplit (List.cons_ne_nil _ _)
      rw [splitOn_eq_singleton hlast] at hrest
      have hinterval : cs = (before ++ first) ++ '-' :: (last ++ after) := by
        rw [hcs, hrest]
        simp
      rw [hinterval]
      refine .interval ?_ ?_ hle
      · rwa [padded_signed_iff, trimChars_append_left hbefore, ← padded_signed_iff]
      · rwa [padded_signed_iff, trimChars_append_right hafter, ← padded_signed_iff]
    · unfold parsePortRange at h
      rw [hlist, hsplit] at h
      cases h
  · intro h
    generalize hlo : range.start.toNat = lo at h
    generalize hhi : range.stop.toNat = hi at h
    cases h with
    | single h =>
        have hsplit : splitOn '-' (trimChars cs) = [trimChars cs] :=
          splitOn_of_notMem fun hmem ↦ hyphen_notMem h (mem_of_mem_trimChars hmem)
        rw [← hlist] at hsplit
        rw [parsePortRange_single hsplit, hlist, hlo]
        exact ⟨padded_signed_iff.mp h, UInt16.toNat_inj.mp (hhi.trans hlo.symm)⟩
    | interval hfirst hlast hle =>
        rename_i first last
        have hsplit : splitOn '-' (trimChars (first ++ '-' :: last)) =
            [first.dropWhile isWhitespace, last.rdropWhile isWhitespace] := by
          have hfront : '-' ∉ first.dropWhile isWhitespace :=
            fun hmem ↦ hyphen_notMem hfirst (List.dropWhile_subset _ hmem)
          have hback : '-' ∉ last.rdropWhile isWhitespace :=
            fun hmem ↦ hyphen_notMem hlast ((List.rdropWhile_prefix _ last).subset hmem)
          rw [trimChars_append_cons (by decide), splitOn_append, splitOn_of_notMem hfront,
            splitOn_of_notMem hback, List.singleton_append]
        rw [← hlist] at hsplit
        rw [parsePortRange_interval hsplit, hlo, hhi, padded_signed_iff, padded_signed_iff,
          trimChars_dropWhile, trimChars_rdropWhile, ← padded_signed_iff, ← padded_signed_iff]
        exact ⟨hfirst, hlast, hle⟩

end Items

/-! ## Lists of items -/

section Lists

variable {cs front back : List Char} {ranges : List PortRange} {range : PortRange} {lo hi : ℕ}
  {items : List (ℕ × ℕ)}

/-- What is read from the parts between commas. -/
def readItems (cs : List Char) : Except String (List PortRange) :=
  (((splitOn ',' cs).map fun part ↦ trim (String.ofList part)).filter
    fun part ↦ !part.isEmpty).mapM parsePortRange

def PortRange.bounds (range : PortRange) : ℕ × ℕ := (range.start.toNat, range.stop.toNat)

theorem PortRange.bounds_injective : Function.Injective PortRange.bounds := by
  rintro ⟨start, stop⟩ ⟨start', stop'⟩ h
  obtain ⟨hstart, hstop⟩ := Prod.mk.inj h
  exact PortRange.mk.injEq .. ▸ ⟨UInt16.toNat_inj.mp hstart, UInt16.toNat_inj.mp hstop⟩

theorem trimChars_eq_nil_iff : trimChars cs = [] ↔ Blank cs := by
  constructor
  · intro h
    obtain ⟨before, after, hcs, hbefore, hafter⟩ := exists_trimChars cs
    rw [h, List.append_nil] at hcs
    rw [hcs]
    exact fun c hc ↦ (List.mem_append.mp hc).elim (hbefore c) (hafter c)
  · intro h
    unfold trimChars
    rw [dropWhile_eq_nil h]
    rfl

theorem readItems_append (front back : List Char) :
    readItems (front ++ ',' :: back) = do
      let ranges ← readItems front
      let ranges' ← readItems back
      return ranges ++ ranges' := by
  unfold readItems
  rw [splitOn_append, List.map_append, List.filter_append, List.mapM_append]

theorem readItems_of_blank (h : Blank cs) : readItems cs = .ok [] := by
  have hcomma : ',' ∉ cs := fun hc ↦ absurd (h ',' hc) (by decide)
  unfold readItems
  rw [splitOn_of_notMem hcomma, List.map_singleton, trim_ofList, trimChars_eq_nil_iff.mpr h]
  rfl

theorem readItems_of_not_blank (hcomma : ',' ∉ cs) (h : ¬Blank cs) :
    readItems cs = .ok ranges ↔
      ∃ range, ranges = [range] ∧ PortItem cs range.start.toNat range.stop.toNat := by
  have hne : (String.ofList (trimChars cs)).isEmpty = false := by
    rw [Bool.eq_false_iff, ne_eq, String.isEmpty_iff, String.ofList_eq_empty_iff,
      trimChars_eq_nil_iff]
    exact h
  unfold readItems
  rw [splitOn_of_notMem hcomma, List.map_singleton, trim_ofList]
  simp only [List.filter_cons, hne, Bool.not_false, if_true, List.filter_nil, List.mapM_cons,
    List.mapM_nil, bind_eq_ok, parsePortRange_eq_ok_iff]
  constructor
  · rintro ⟨range, hrange, rest, hrest, h⟩
    cases hrest
    cases h
    exact ⟨range, rfl, hrange⟩
  · rintro ⟨range, rfl, hrange⟩
    exact ⟨range, hrange, [], rfl, rfl⟩

theorem Signed.exists_mem (h : Signed cs lo) : ∃ c ∈ cs, isWhitespace c = false := by
  have hne : trimChars cs ≠ [] := by
    rw [h.trimChars_eq]
    cases h with
    | plain h => exact h.nonempty
    | plus h => exact List.cons_ne_nil _ _
  by_contra hblank
  refine hne (trimChars_eq_nil_iff.mpr fun c hc ↦ ?_)
  by_contra hc'
  exact hblank ⟨c, hc, Bool.eq_false_iff.mpr hc'⟩

theorem PortItem.not_blank (h : PortItem cs lo hi) : ¬Blank cs := by
  intro hblank
  cases h with
  | single h =>
      obtain ⟨c, hc, hc'⟩ := (padded_signed_iff.mp h).exists_mem
      exact absurd (hblank c (mem_of_mem_trimChars hc)) (by rw [hc']; exact Bool.false_ne_true)
  | interval hfirst hlast hle =>
      have hhyphen := hblank '-' (List.mem_append_right _ List.mem_cons_self)
      exact absurd hhyphen (by decide)

theorem PortItem.exists_bounds (h : PortItem cs lo hi) :
    ∃ range : PortRange, range.bounds = (lo, hi) := by
  have hrange (hlo : lo < 65536) (hhi : hi < 65536) :
      (⟨UInt16.ofNat lo, UInt16.ofNat hi⟩ : PortRange).bounds = (lo, hi) := by
    rw [PortRange.bounds, UInt16.toNat_ofNat_of_lt' hlo, UInt16.toNat_ofNat_of_lt' hhi]
  cases h with
  | single h =>
      have hbound := (padded_signed_iff.mp h).bound
      exact ⟨_, hrange hbound hbound⟩
  | interval hfirst hlast hle =>
      exact ⟨_, hrange (padded_signed_iff.mp hfirst).bound (padded_signed_iff.mp hlast).bound⟩

/-- What is in the grammar is read. -/
theorem Listing.readItems (h : Listing PortItem cs items) :
    ∃ ranges, readItems cs = .ok ranges ∧ ranges.map PortRange.bounds = items := by
  induction h with
  | blank h => exact ⟨[], readItems_of_blank h, rfl⟩
  | item h =>
      obtain ⟨range, hrange⟩ := h.exists_bounds
      refine ⟨[range], (readItems_of_not_blank (comma_notMem h) h.not_blank).mpr
        ⟨range, rfl, ?_⟩, ?_⟩
      · obtain ⟨rfl, rfl⟩ := Prod.mk.inj hrange
        exact h
      · rw [List.map_singleton, hrange]
  | comma hfront hback ihfront ihback =>
      obtain ⟨ranges, hranges, rfl⟩ := ihfront
      obtain ⟨ranges', hranges', rfl⟩ := ihback
      refine ⟨ranges ++ ranges', ?_, List.map_append⟩
      rw [readItems_append, hranges, hranges']
      rfl

/-- The reader reads what the grammar says. -/
theorem readItems_eq_ok_iff :
    readItems cs = .ok ranges ↔ Listing PortItem cs (ranges.map PortRange.bounds) := by
  constructor
  · intro h
    induction hlength : cs.length using Nat.strong_induction_on generalizing cs ranges with
    | h n ih =>
      by_cases hcomma : ',' ∈ cs
      · -- the text is cut at a comma, and both pieces are shorter
        obtain ⟨front, back, rfl⟩ := List.append_of_mem hcomma
        rw [readItems_append, bind_eq_ok] at h
        obtain ⟨ranges₁, hfront, h⟩ := h
        rw [bind_eq_ok] at h
        obtain ⟨ranges₂, hback, h⟩ := h
        cases h
        rw [List.length_append, List.length_cons] at hlength
        rw [List.map_append]
        exact .comma (ih front.length (by omega) hfront rfl) (ih back.length (by omega) hback rfl)
      · by_cases hblank : Blank cs
        · rw [readItems_of_blank hblank] at h
          cases h
          exact .blank hblank
        · obtain ⟨range, rfl, hrange⟩ := (readItems_of_not_blank hcomma hblank).mp h
          exact .item hrange
  · intro h
    obtain ⟨ranges', hranges', hbounds⟩ := h.readItems
    rw [hranges', List.map_injective_iff.mpr PortRange.bounds_injective hbounds]

/-- A list of items is accepted with the ranges that it lists, if it lists any. -/
theorem parsePortRanges_eq_ok_iff {s : String} :
    parsePortRanges s = .ok ranges ↔
      ranges ≠ [] ∧ Listing PortItem s.toList (ranges.map PortRange.bounds) := by
  have hparse : parsePortRanges s = readItems s.toList >>= fun ranges ↦
      if ranges.isEmpty then .error "端口范围不能为空" else .ok ranges := rfl
  rw [hparse, bind_eq_ok, ← readItems_eq_ok_iff]
  constructor
  · rintro ⟨ranges', hranges', h⟩
    split_ifs at h with hempty
    cases h
    exact ⟨fun hnil ↦ hempty (List.isEmpty_iff.mpr hnil), hranges'⟩
  · rintro ⟨hne, hranges⟩
    exact ⟨ranges, hranges, if_neg fun hempty ↦ hne (List.isEmpty_iff.mp hempty)⟩

theorem isPortInRanges_eq_true_iff {port : UInt16} :
    isPortInRanges port ranges = true ↔
      ∃ item ∈ ranges.map PortRange.bounds, item.1 ≤ port.toNat ∧ port.toNat ≤ item.2 := by
  simp only [isPortInRanges, List.any_eq_true, List.mem_map, exists_exists_and_eq_and,
    PortRange.contains, Bool.and_eq_true, decide_eq_true_eq, PortRange.bounds,
    UInt16.le_iff_toNat_le]

end Lists

/-! ## Order and repetition -/

section Sets

variable {parts parts' : List (List Char)} {part : List Char} {ranges : List PortRange}
  {lo hi lo' hi' : ℕ}

/-- Parts with commas between them. -/
def joined (parts : List (List Char)) : List Char := [','].intercalate parts

/-- The ports that a text opens, if it is accepted. -/
def opened (s : String) : Option (UInt16 → Bool) :=
  (parsePortRanges s).toOption.map fun ranges port ↦ isPortInRanges port ranges

/-- The same parts up to order, repetition and blank parts. -/
def SameItems (parts parts' : List (List Char)) : Prop :=
  ∀ part, ¬Blank part → (part ∈ parts ↔ part ∈ parts')

theorem SameItems.symm (h : SameItems parts parts') : SameItems parts' parts :=
  fun part hpart ↦ (h part hpart).symm

/-- The ports of an item are determined. -/
theorem PortItem.unique (h : PortItem part lo hi) (h' : PortItem part lo' hi') :
    (lo, hi) = (lo', hi') := by
  have hread {lo hi : ℕ} (h : PortItem part lo hi) :
      ∃ range, readItems part = .ok [range] ∧ range.bounds = (lo, hi) := by
    obtain ⟨ranges, hranges, hbounds⟩ := (Listing.item h).readItems
    obtain ⟨range, hrange, hbounds⟩ := List.map_eq_singleton_iff.mp hbounds
    exact ⟨range, hrange ▸ hranges, hbounds⟩
  obtain ⟨range, hrange, hbounds⟩ := hread h
  obtain ⟨range', hrange', hbounds'⟩ := hread h'
  rw [hrange] at hrange'
  cases hrange'
  rw [← hbounds, hbounds']

theorem joined_cons_cons (part part' : List Char) (parts : List (List Char)) :
    joined (part :: part' :: parts) = part ++ ',' :: joined (part' :: parts) := by
  unfold joined
  rw [List.intercalate_cons_cons, List.append_assoc, List.singleton_append]

theorem mem_of_readItems (hcomma : ',' ∉ part) (h : readItems part = .ok ranges)
    (item : ℕ × ℕ) : item ∈ ranges.map PortRange.bounds ↔ PortItem part item.1 item.2 := by
  by_cases hblank : Blank part
  · rw [readItems_of_blank hblank] at h
    cases h
    exact ⟨nofun, fun hitem ↦ (hitem.not_blank hblank).elim⟩
  · obtain ⟨range, rfl, hrange⟩ := (readItems_of_not_blank hcomma hblank).mp h
    rw [List.map_singleton, List.mem_singleton]
    exact ⟨fun hitem ↦ hitem ▸ hrange, fun hitem ↦ hitem.unique hrange⟩

/-- The items of a text are those of its parts. -/
theorem mem_of_readItems_joined (hcomma : ∀ part ∈ parts, ',' ∉ part)
    (h : readItems (joined parts) = .ok ranges) (item : ℕ × ℕ) :
    item ∈ ranges.map PortRange.bounds ↔ ∃ part ∈ parts, PortItem part item.1 item.2 := by
  induction parts generalizing ranges with
  | nil =>
      rw [show joined [] = [] from rfl, readItems_of_blank (by exact List.forall_mem_nil _)] at h
      cases h
      exact ⟨nofun, fun ⟨part, hpart, _⟩ ↦ nomatch hpart⟩
  | cons part parts ih =>
      obtain ⟨hpart, hparts⟩ := List.forall_mem_cons.mp hcomma
      cases parts with
      | nil =>
          rw [show joined [part] = part from List.intercalate_singleton] at h
          rw [mem_of_readItems hpart h]
          simp only [List.mem_singleton, exists_eq_left]
      | cons part' parts =>
          rw [joined_cons_cons, readItems_append, bind_eq_ok] at h
          obtain ⟨ranges₁, hfront, h⟩ := h
          rw [bind_eq_ok] at h
          obtain ⟨ranges₂, hback, h⟩ := h
          cases h
          rw [List.map_append, List.mem_append, mem_of_readItems hpart hfront, ih hparts hback]
          simp only [List.mem_cons, exists_eq_or_imp]

/-- A text is read when each of its parts is blank or an item. -/
theorem exists_readItems_joined_iff (hcomma : ∀ part ∈ parts, ',' ∉ part) :
    (∃ ranges, readItems (joined parts) = .ok ranges) ↔
      ∀ part ∈ parts, ¬Blank part → ∃ lo hi, PortItem part lo hi := by
  have hsingle {part : List Char} (hpart : ',' ∉ part) :
      (∃ ranges, readItems part = .ok ranges) ↔ ¬Blank part → ∃ lo hi, PortItem part lo hi := by
    constructor
    · rintro ⟨ranges, h⟩ hblank
      obtain ⟨range, -, hrange⟩ := (readItems_of_not_blank hpart hblank).mp h
      exact ⟨_, _, hrange⟩
    · intro h
      by_cases hblank : Blank part
      · exact ⟨[], readItems_of_blank hblank⟩
      · obtain ⟨lo, hi, hitem⟩ := h hblank
        obtain ⟨ranges, hranges, -⟩ := (Listing.item hitem).readItems
        exact ⟨ranges, hranges⟩
  induction parts with
  | nil =>
      have hnil : Blank [] := List.forall_mem_nil _
      exact ⟨fun _ ↦ List.forall_mem_nil _, fun _ ↦ ⟨[], readItems_of_blank hnil⟩⟩
  | cons part parts ih =>
      obtain ⟨hpart, hparts⟩ := List.forall_mem_cons.mp hcomma
      cases parts with
      | nil =>
          rw [show joined [part] = part from List.intercalate_singleton, List.forall_mem_singleton]
          exact hsingle hpart
      | cons part' parts =>
          rw [joined_cons_cons, List.forall_mem_cons, readItems_append]
          refine Iff.trans ?_ (and_congr (hsingle hpart) (ih hparts))
          simp only [bind_eq_ok]
          constructor
          · rintro ⟨ranges, ranges₁, hfront, ranges₂, hback, -⟩
            exact ⟨⟨ranges₁, hfront⟩, ranges₂, hback⟩
          · rintro ⟨⟨ranges₁, hfront⟩, ranges₂, hback⟩
            exact ⟨_, ranges₁, hfront, ranges₂, hback, rfl⟩

/-- What a text opens is told by its items. -/
theorem opened_eq_some_iff {s : String} {opens : UInt16 → Bool} :
    opened s = some opens ↔ ∃ ranges, ranges ≠ [] ∧ readItems s.toList = .ok ranges ∧
      opens = fun port ↦ isPortInRanges port ranges := by
  unfold opened
  rw [Option.map_eq_some_iff]
  constructor
  · rintro ⟨ranges, hranges, rfl⟩
    cases hparse : parsePortRanges s with
    | error e =>
        rw [hparse] at hranges
        cases hranges
    | ok ranges' =>
        rw [hparse] at hranges
        cases hranges
        obtain ⟨hne, hlisting⟩ := parsePortRanges_eq_ok_iff.mp hparse
        exact ⟨ranges, hne, readItems_eq_ok_iff.mpr hlisting, rfl⟩
  · rintro ⟨ranges, hne, hranges, rfl⟩
    refine ⟨ranges, ?_, rfl⟩
    rw [parsePortRanges_eq_ok_iff.mpr ⟨hne, readItems_eq_ok_iff.mp hranges⟩]
    rfl

theorem SameItems.opened (h : SameItems parts parts') (hcomma : ∀ part ∈ parts, ',' ∉ part)
    (hcomma' : ∀ part ∈ parts', ',' ∉ part) {opens : UInt16 → Bool}
    (hopens : opened (String.ofList (joined parts)) = some opens) :
    opened (String.ofList (joined parts')) = some opens := by
  rw [opened_eq_some_iff, String.toList_ofList] at hopens ⊢
  obtain ⟨ranges, hne, hranges, rfl⟩ := hopens
  have hall := (exists_readItems_joined_iff hcomma).mp ⟨ranges, hranges⟩
  obtain ⟨ranges', hranges'⟩ := (exists_readItems_joined_iff hcomma').mpr
    fun part hpart hblank ↦ hall part ((h part hblank).mpr hpart) hblank
  -- blank parts are no items
  have hitems (item : ℕ × ℕ) :
      item ∈ ranges'.map PortRange.bounds ↔ item ∈ ranges.map PortRange.bounds := by
    rw [mem_of_readItems_joined hcomma hranges, mem_of_readItems_joined hcomma' hranges']
    refine exists_congr fun part ↦ and_congr_left fun hitem ↦ ?_
    exact (h part hitem.not_blank).symm
  refine ⟨ranges', ?_, hranges', ?_⟩
  · rintro rfl
    obtain ⟨range, hrange⟩ := List.exists_mem_of_ne_nil ranges hne
    exact nomatch (hitems _).mpr (List.mem_map_of_mem hrange)
  · funext port
    rw [Bool.eq_iff_iff, isPortInRanges_eq_true_iff, isPortInRanges_eq_true_iff]
    exact exists_congr fun item ↦ and_congr_left fun _ ↦ (hitems item).symm

/-- The accepted texts, the ports that they open, and that order and repetition of the
items do not matter. -/
theorem parsePortRanges_language :
    (∀ s, (∃ ranges, parsePortRanges s = .ok ranges) ↔
      ∃ items, items ≠ [] ∧ Listing PortItem s.toList items) ∧
    (∀ s ranges items, parsePortRanges s = .ok ranges → Listing PortItem s.toList items →
      ∀ port, isPortInRanges port ranges = true ↔
        ∃ item ∈ items, item.1 ≤ port.toNat ∧ port.toNat ≤ item.2) ∧
    ∀ parts parts', (∀ part ∈ parts, ',' ∉ part) → (∀ part ∈ parts', ',' ∉ part) →
      SameItems parts parts' →
        opened (String.ofList (joined parts)) = opened (String.ofList (joined parts')) := by
  refine ⟨fun s ↦ ⟨?_, ?_⟩, fun s ranges items hranges hitems port ↦ ?_,
    fun parts parts' hcomma hcomma' h ↦ Option.ext fun opens ↦ ?_⟩
  · rintro ⟨ranges, hranges⟩
    obtain ⟨hne, hlisting⟩ := parsePortRanges_eq_ok_iff.mp hranges
    exact ⟨_, fun hnil ↦ hne (List.map_eq_nil_iff.mp hnil), hlisting⟩
  · rintro ⟨items, hne, hlisting⟩
    obtain ⟨ranges, hranges, rfl⟩ := hlisting.readItems
    refine ⟨ranges, parsePortRanges_eq_ok_iff.mpr ⟨?_, readItems_eq_ok_iff.mp hranges⟩⟩
    exact fun hnil ↦ hne (List.map_eq_nil_iff.mpr hnil)
  · obtain ⟨ranges', hranges', rfl⟩ := hitems.readItems
    rw [readItems_eq_ok_iff.mpr (parsePortRanges_eq_ok_iff.mp hranges).2] at hranges'
    cases hranges'
    exact isPortInRanges_eq_true_iff
  · exact ⟨h.opened hcomma hcomma', h.symm.opened hcomma' hcomma⟩

end Sets

/-! ## Blanks and signs inside items -/

theorem StrictItem.mem {cs : List Char} {lo hi : ℕ} (h : StrictItem cs lo hi) :
    ∀ c ∈ trimChars cs, c.isDigit = true ∨ c = '-' := by
  have hitem {core : List Char} {lo hi : ℕ} (h : Item Numeral core lo hi) :
      ∀ c ∈ core, c.isDigit = true ∨ c = '-' := by
    cases h with
    | single h => exact fun c hc ↦ .inl (h.digits c hc)
    | interval hfirst hlast hle =>
        intro c hc
        rcases List.mem_append.mp hc with hc | hc
        · exact .inl (hfirst.digits c hc)
        · rcases List.mem_cons.mp hc with rfl | hc
          · exact .inr rfl
          · exact .inl (hlast.digits c hc)
  have htrim {core : List Char} (h : Item Numeral core lo hi) : trimChars core = core := by
    refine trimChars_of_forall fun c hc ↦ ?_
    rcases hitem h c hc with hdigit | rfl
    · exact isWhitespace_of_isDigit hdigit
    · decide
  exact hitem ((padded_iff fun core ↦ htrim).mp h)

/-- A text without commas that has another character inside is not a strict list. -/
theorem not_strict {cs : List Char} {c : Char} (hcomma : ',' ∉ cs) (hc : c ∈ trimChars cs)
    (hother : ¬(c.isDigit = true ∨ c = '-')) {items : List (ℕ × ℕ)}
    (h : Listing StrictItem cs items) : False := by
  cases h with
  | blank h =>
      rw [trimChars_eq_nil_iff.mpr h] at hc
      cases hc
  | item h => exact hother (h.mem c hc)
  | comma => exact hcomma (List.mem_append_right _ List.mem_cons_self)

/-- Blanks around a hyphen are accepted, and so is a plus sign. -/
theorem not_strict_language :
    ¬((∃ ranges, parsePortRanges "1000 - 2000" = .ok ranges) ↔
        ∃ items, items ≠ [] ∧ Listing StrictItem "1000 - 2000".toList items) ∧
      ¬((∃ ranges, parsePortRanges "+80" = .ok ranges) ↔
        ∃ items, items ≠ [] ∧ Listing StrictItem "+80".toList items) := by
  have hblanks : parsePortRanges "1000 - 2000" = .ok [⟨1000, 2000⟩] := by decide +kernel
  have hplus : parsePortRanges "+80" = .ok [⟨80, 80⟩] := by decide +kernel
  constructor
  · intro h
    obtain ⟨items, -, hitems⟩ := h.mp ⟨_, hblanks⟩
    exact @not_strict _ ' ' (by decide) (by decide) (by decide) _ hitems
  · intro h
    obtain ⟨items, -, hitems⟩ := h.mp ⟨_, hplus⟩
    exact @not_strict _ '+' (by decide) (by decide) (by decide) _ hitems

end Oxiproxy.Controller
