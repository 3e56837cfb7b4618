import Oxiproxy.Common.Domain

/-!
# Exact names and wildcard suffixes

Which route serves a host: the entry under its own name, or else the one of
the longest wildcard whose suffix the host ends in, cut between two labels.
-/

namespace Oxiproxy

open Net

theorem splitOn_eq_singleton {sep : Char} {cs part : List Char} (h : splitOn sep cs = [part]) :
    cs = part := by
  induction cs generalizing part with
  | nil => exact (List.singleton_inj.mp h)
  | cons c cs ih =>
      obtain ⟨head, parts, hsplit⟩ := List.exists_cons_of_ne_nil (splitOn_ne_nil sep cs)
      by_cases hc : c = sep
      · simp [splitOn, hc, hsplit] at h
      · simp only [splitOn, hc, hsplit, if_false, List.cons.injEq] at h
        obtain ⟨hpart, rfl⟩ := h
        rw [← hpart, ih hsplit]

/-- The first of several parts ends at a separator. -/
theorem exists_of_splitOn_eq_cons {sep : Char} {cs part : List Char} {parts : List (List Char)}
    (h : splitOn sep cs = part :: parts) (hparts : parts ≠ []) :
    ∃ rest, cs = part ++ sep :: rest ∧ splitOn sep rest = parts := by
  induction cs generalizing part with
  | nil =>
      obtain ⟨-, rfl⟩ := List.cons.inj h
      exact (hparts rfl).elim
  | cons c cs ih =>
      obtain ⟨head, tail, hsplit⟩ := List.exists_cons_of_ne_nil (splitOn_ne_nil sep cs)
      by_cases hc : c = sep
      · simp only [splitOn, hc, if_true, List.cons.injEq] at h
        obtain ⟨rfl, rfl⟩ := h
        exact ⟨cs, by rw [hc, List.nil_append], rfl⟩
      · simp only [splitOn, hc, hsplit, if_false, List.cons.injEq] at h
        obtain ⟨rfl, rfl⟩ := h
        obtain ⟨rest, hrest, hsplit⟩ := ih hsplit
        exact ⟨rest, by rw [hrest, List.cons_append], hsplit⟩

theorem splitOn_injective (sep : Char) : Function.Injective (splitOn sep) := by
  intro cs cs' h
  generalize hparts : splitOn sep cs' = parts at h
  induction parts generalizing cs cs' with
  | nil => exact (splitOn_ne_nil sep cs h).elim
  | cons part parts ih =>
      by_cases hnil : parts = []
      · subst hnil
        rw [splitOn_eq_singleton h, splitOn_eq_singleton hparts]
      · obtain ⟨rest, rfl, hrest⟩ := exists_of_splitOn_eq_cons h hnil
        obtain ⟨rest', rfl, hrest'⟩ := exists_of_splitOn_eq_cons hparts hnil
        rw [ih hrest hrest']

/-! ## Labels -/

/-- `host` is one or more whole labels followed by a dot and `suffix`. -/
def Under (host suffix : String) : Prop :=
  ∃ labels : List (List Char), labels ≠ [] ∧ [] ∉ labels ∧
    splitOn '.' host.toList = labels ++ splitOn '.' suffix.toList

theorem Under.exists_front {host suffix : String} (h : Under host suffix) :
    ∃ front, host.toList = front ++ '.' :: suffix.toList := by
  obtain ⟨labels, hlabels, -, hsplit⟩ := h
  generalize host.toList = cs at hsplit
  induction labels generalizing cs with
  | nil => exact (hlabels rfl).elim
  | cons label labels ih =>
      have hne : labels ++ splitOn '.' suffix.toList ≠ [] :=
        List.append_ne_nil_of_right_ne_nil _ (splitOn_ne_nil _ _)
      obtain ⟨rest, rfl, hrest⟩ := exists_of_splitOn_eq_cons hsplit hne
      by_cases hnil : labels = []
      · subst hnil
        exact ⟨label, by rw [splitOn_injective _ hrest]⟩
      · obtain ⟨front, rfl⟩ := ih hnil _ hrest
        exact ⟨label ++ '.' :: front, by simp⟩

/-- A wildcard never matches its own apex. -/
theorem not_under_self (suffix : String) : ¬ Under suffix suffix := by
  rintro h
  obtain ⟨front, hfront⟩ := h.exists_front
  have hlength := congrArg List.length hfront
  simp only [List.length_append, List.length_cons] at hlength
  omega

/-- Nor a host that has the suffix only without a boundary between labels. -/
theorem not_under_of_no_boundary {host suffix : String} {front : List Char}
    (hhost : host.toList = front ++ suffix.toList) (hfront : front.getLast? ≠ some '.') :
    ¬ Under host suffix := by
  intro h
  obtain ⟨front', hfront'⟩ := h.exists_front
  have hsame : front ++ suffix.toList = (front' ++ ['.']) ++ suffix.toList := by
    rw [← hhost, hfront', List.append_assoc, List.singleton_append]
  rw [List.append_cancel_right hsame] at hfront
  exact hfront List.getLast?_concat

/-- A name without empty labels is under whatever follows one of its dots. -/
theorem under_of_append {host suffix : String} {front : List Char}
    (hlabels : [] ∉ splitOn '.' host.toList)
    (hhost : host.toList = front ++ '.' :: suffix.toList) : Under host suffix := by
  rw [hhost, splitOn_append] at hlabels
  refine ⟨splitOn '.' front, splitOn_ne_nil _ _, ?_, by rw [hhost, splitOn_append]⟩
  exact fun h ↦ hlabels (List.mem_append_left _ h)

theorem nil_notMem_of_normalizeDomain {value host : String}
    (h : normalizeDomain value = .ok host) : [] ∉ splitOn '.' host.toList := by
  intro hmem
  obtain ⟨-, -, -, -, -, hlabels⟩ := normalizeDomain_eq_ok h
  have hvalid := List.any_eq_false.mp hlabels [] hmem
  exact hvalid (by decide)

/-! ## The order of the candidates -/

theorem mem_wildcards {cs : List Char} {pattern : String} :
    pattern ∈ wildcards cs ↔
      ∃ front suffix, cs = front ++ '.' :: suffix ∧ pattern = "*." ++ String.ofList suffix := by
  have hpattern (suffix : List Char) :
      "*" ++ String.ofList ('.' :: suffix) = "*." ++ String.ofList suffix := by
    apply String.toList_inj.mp
    simp
  induction cs with
  | nil => simp [wildcards]
  | cons c cs ih =>
      constructor
      · intro h
        by_cases hc : c = '.'
        · rw [wildcards, if_pos hc, List.mem_cons] at h
          rcases h with rfl | h
          · exact ⟨[], cs, by rw [hc, List.nil_append], by rw [hc, hpattern]⟩
          · obtain ⟨front, suffix, rfl, rfl⟩ := ih.mp h
            exact ⟨c :: front, suffix, rfl, rfl⟩
        · rw [wildcards, if_neg hc] at h
          obtain ⟨front, suffix, rfl, rfl⟩ := ih.mp h
          exact ⟨c :: front, suffix, rfl, rfl⟩
      · rintro ⟨front, suffix, hcs, rfl⟩
        cases front with
        | nil =>
            obtain ⟨rfl, rfl⟩ := List.cons.inj hcs
            rw [wildcards, if_pos rfl, ← hpattern]
            exact List.mem_cons_self
        | cons a front =>
            obtain ⟨rfl, rfl⟩ := List.cons.inj hcs
            have hmem := ih.mpr ⟨front, suffix, rfl, rfl⟩
            unfold wildcards
            split_ifs
            · exact List.mem_cons_of_mem _ hmem
            · exact hmem

theorem wildcard_length (suffix : String) : ("*." ++ suffix).length = suffix.length + 2 := by
  rw [String.length_append, Nat.add_comm]
  rfl

/-- The candidates are tried from the longest suffix to the shortest. -/
theorem wildcards_pairwise (cs : List Char) :
    (wildcards cs).Pairwise fun pattern later ↦ later.length < pattern.length := by
  induction cs with
  | nil => exact List.Pairwise.nil
  | cons c cs ih =>
      by_cases hc : c = '.'
      · rw [wildcards, if_pos hc, List.pairwise_cons]
        refine ⟨fun later hlater ↦ ?_, ih⟩
        obtain ⟨front, suffix, rfl, rfl⟩ := mem_wildcards.mp hlater
        have hone : "*".length = 1 := rfl
        rw [wildcard_length, String.length_append, hone]
        simp only [String.length_ofList, List.length_cons, List.length_append]
        omega
      · rwa [wildcards, if_neg hc]

theorem mem_wildcards_iff_under {host suffix : String}
    (hlabels : [] ∉ splitOn '.' host.toList) :
    "*." ++ suffix ∈ wildcards host.toList ↔ Under host suffix := by
  rw [mem_wildcards]
  constructor
  · rintro ⟨front, rest, hhost, hpattern⟩
    have hsuffix : suffix.toList = rest := by simpa using congrArg String.toList hpattern
    exact under_of_append hlabels (by rw [hhost, hsuffix])
  · intro h
    obtain ⟨front, hfront⟩ := h.exists_front
    exact ⟨front, suffix.toList, hfront, by rw [String.ofList_toList]⟩

/-! ## What is found -/

variable {T : Type*}

/-- What a table says of a host, in terms of the names alone: the exact entry,
the entry of the longest wildcard above the host, or nothing. -/
inductive Serves (routes : AList fun _ : String ↦ T) (host : String) : Option T → Prop
  | exact {route : T} : routes.lookup host = some route → Serves routes host (some route)
  | wildcard {suffix : String} {route : T} : routes.lookup host = none → Under host suffix →
      routes.lookup ("*." ++ suffix) = some route →
      (∀ longer, Under host longer → suffix.length < longer.length →
        routes.lookup ("*." ++ longer) = none) → Serves routes host (some route)
  | none : routes.lookup host = none →
      (∀ suffix, Under host suffix → routes.lookup ("*." ++ suffix) = none) →
      Serves routes host none

theorem findRoute_serves {routes : AList fun _ : String ↦ T} {host : String}
    (hlabels : [] ∉ splitOn '.' host.toList) : Serves routes host (findRoute routes host) := by
  unfold findRoute
  cases hexact : routes.lookup host with
  | some route => exact .exact hexact
  | none =>
      cases hfound : (wildcards host.toList).findSome? routes.lookup with
      | none =>
          rw [List.findSome?_eq_none_iff] at hfound
          refine .none hexact fun suffix hsuffix ↦ hfound _ ?_
          exact (mem_wildcards_iff_under hlabels).mpr hsuffix
      | some route =>
          rw [List.findSome?_eq_some_iff] at hfound
          obtain ⟨before, pattern, after, hsplit, hroute, hbefore⟩ := hfound
          have hmem : pattern ∈ wildcards host.toList := by
            rw [hsplit]
            exact List.mem_append_right _ List.mem_cons_self
          obtain ⟨front, rest, hhost, rfl⟩ := mem_wildcards.mp hmem
          refine .wildcard hexact ((mem_wildcards_iff_under hlabels).mp hmem) hroute ?_
          intro longer hlonger hlength
          have hlonger := (mem_wildcards_iff_under hlabels).mpr hlonger
          have hpairwise := wildcards_pairwise host.toList
          rw [hsplit, List.pairwise_append, List.pairwise_cons] at hpairwise
          rw [hsplit, List.mem_append, List.mem_cons] at hlonger
          -- neither the pattern found nor one tried after it is longer
          rcases hlonger with hlonger | heq | hlonger
          · exact hbefore _ hlonger
          · have hsame := congrArg String.length heq
            rw [wildcard_length, wildcard_length] at hsame
            omega
          · have hshort := hpairwise.2.1.1 _ hlonger
            rw [wildcard_length, wildcard_length] at hshort
            omega

/-- Two suffixes of one length that a host is under are the same. -/
theorem Under.eq_of_length {host suffix suffix' : String} (h : Under host suffix)
    (h' : Under host suffix') (hlength : suffix.length = suffix'.length) : suffix = suffix' := by
  obtain ⟨front, hfront⟩ := h.exists_front
  obtain ⟨front', hfront'⟩ := h'.exists_front
  rw [hfront] at hfront'
  have htail : '.' :: suffix.toList = '.' :: suffix'.toList :=
    List.append_inj_right' hfront' (by simp only [List.length_cons, String.length_toList, hlength])
  exact String.toList_inj.mp (List.cons.inj htail).2

/-- The names leave one answer. -/
theorem Serves.unique {routes : AList fun _ : String ↦ T} {host : String} {result result' : Option T}
    (h : Serves routes host result) (h' : Serves routes host result') : result = result' := by
  cases h with
  | exact hroute =>
      cases h' with
      | exact hroute' => rw [← hroute, ← hroute']
      | wildcard hnone => rw [hnone] at hroute; cases hroute
      | none hnone => rw [hnone] at hroute; cases hroute
  | @wildcard suffix _ hnone hunder hroute hlongest =>
      cases h' with
      | exact hroute' => rw [hnone] at hroute'; cases hroute'
      | @wildcard suffix' _ _ hunder' hroute' hlongest' =>
          rcases lt_trichotomy suffix.length suffix'.length with hlt | heq | hgt
          · rw [hlongest _ hunder' hlt] at hroute'; cases hroute'
          · obtain rfl := hunder.eq_of_length hunder' heq
            rw [← hroute, ← hroute']
          · rw [hlongest' _ hunder hgt] at hroute; cases hroute
      | none _ hnone' => rw [hnone' _ hunder] at hroute; cases hroute
  | none hnone hnowild =>
      cases h' with
      | exact hroute' => rw [hnone] at hroute'; cases hroute'
      | wildcard _ hunder' hroute' => rw [hnowild _ hunder'] at hroute'; cases hroute'
      | none => rfl

/-- A wildcard that a host is not under has no part in the host's route. -/
theorem findRoute_erase {routes : AList fun _ : String ↦ T} {host suffix : String}
    (hlabels : [] ∉ splitOn '.' host.toList) (hhost : host ≠ "*." ++ suffix)
    (hunder : ¬ Under host suffix) :
    findRoute (routes.erase ("*." ++ suffix)) host = findRoute routes host := by
  have hlookup {pattern : String} (hpattern : pattern ≠ "*." ++ suffix) :
      (routes.erase ("*." ++ suffix)).lookup pattern = routes.lookup pattern :=
    AList.lookup_erase_ne hpattern
  refine Serves.unique (findRoute_serves hlabels) ?_
  have hserves : Serves routes host (findRoute routes host) := findRoute_serves hlabels
  generalize findRoute routes host = result at hserves ⊢
  have hwildcard {other : String} (h : Under host other) : "*." ++ other ≠ "*." ++ suffix := by
    intro heq
    have hsame : other = suffix := String.toList_inj.mp (by simpa using congrArg String.toList heq)
    exact hunder (hsame ▸ h)
  cases hserves with
  | exact hroute => exact .exact (by rw [hlookup hhost, hroute])
  | wildcard hnone hother hroute hlongest =>
      refine .wildcard (by rw [hlookup hhost, hnone]) hother
        (by rw [hlookup (hwildcard hother), hroute]) fun longer hlonger hlength ↦ ?_
      rw [hlookup (hwildcard hlonger), hlongest longer hlonger hlength]
  | none hnone hnowild =>
      refine .none (by rw [hlookup hhost, hnone]) fun other hother ↦ ?_
      rw [hlookup (hwildcard hother), hnowild other hother]

/-- Route lookup meets its specification. -/
theorem findRoute_correct (routes : AList fun _ : String ↦ T) {value host : String}
    (hhost : normalizeDomain value = .ok host) :
    (∀ result, Serves routes host result ↔ findRoute routes host = result) ∧
      ¬ Under host host ∧
      (∀ suffix front, host.toList = front ++ suffix.toList → front.getLast? ≠ some '.' →
        ¬ Under host suffix) ∧
      (∀ suffix, ¬ Under host suffix →
        findRoute (routes.erase ("*." ++ suffix)) host = findRoute routes host) ∧
      ∀ routes' : AList fun _ : String ↦ T, routes.entries.Perm routes'.entries →
        findRoute routes' host = findRoute routes host := by
  have hlabels := nil_notMem_of_normalizeDomain hhost
  have hserves : Serves routes host (findRoute routes host) := findRoute_serves hlabels
  refine ⟨fun result ↦ ⟨fun h ↦ hserves.unique h, fun h ↦ h ▸ hserves⟩, not_under_self host,
    fun suffix front hsplit hfront ↦ not_under_of_no_boundary hsplit hfront,
    fun suffix hunder ↦ findRoute_erase hlabels ?_ hunder, fun routes' hperm ↦ ?_⟩
  · rintro rfl
    have hstar : isDomainChar '*' = true := by
      obtain ⟨hchars, -⟩ := normalizeDomain_eq_ok hhost
      exact (hchars '*' (by simp)).1
    exact absurd hstar (by decide)
  · exact (findRoute_congr (fun domain ↦ AList.perm_lookup hperm) host).symm

/-- The table of three routes that the source's own test looks names up in. -/
def testRoutes : AList fun _ : String ↦ ℕ :=
  ((∅ : AList fun _ : String ↦ ℕ).insert "*.yunnet.top" 1 |>.insert "nas.yunnet.top" 2).insert
    "*.home.yunnet.top" 3

theorem findRoute_correct_testRoutes :
    normalizeDomain " A.b.home.Yunnet.TOP." = .ok "a.b.home.yunnet.top" ∧
      Serves testRoutes "a.b.home.yunnet.top" (some 3) := by
  have hhost : normalizeDomain " A.b.home.Yunnet.TOP." = .ok "a.b.home.yunnet.top" := by
    decide +kernel
  refine ⟨hhost, ((findRoute_correct testRoutes hhost).1 _).mpr ?_⟩
  decide +kernel

end Oxiproxy
