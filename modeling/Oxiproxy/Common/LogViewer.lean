import Oxiproxy.Foundation.Runs

/-!
# Following a log

The log viewer prints what is appended to the newest of the daily log files.  A
poll looks for a newer file, opens the current one, reads its length and reads
what lies behind the offset; the logger writes between any two of these steps.
-/

namespace Oxiproxy.LogViewer

open Transition

structure LogFile where
  name : String
  content : String
  deriving DecidableEq, Repr

def bytes (s : String) : List UInt8 := s.toByteArray.data.toList

/-- The latest of the daily files among the names in a directory, or else the
file that is named by the prefix itself. -/
def locateLatest (stem : String) (names : List String) : Option String :=
  let dated := names.filter fun name ↦ (stem ++ ".").toList.isPrefixOf name.toList
  match (dated.insertionSort (· ≤ ·)).getLast? with
  | some latest => some latest
  | none => if stem ∈ names then some stem else none

/-- Where the follower is in its loop. -/
inductive Poll
  | relocating
  | opening
  | measuring
  | reading (len : ℕ)
  deriving DecidableEq, Repr

/-- The directory and a follower of its log: the files of the logger in the order
in which it has created them, the names of all other files, and the position of
the follower.  `printed` is its output and `appended` what the logger has written
since the follower fixed its first offset. -/
structure Follower where
  stem : String
  files : List LogFile
  others : List String
  current : String
  offset : ℕ
  poll : Poll
  printed : List UInt8
  appended : List UInt8
  deriving DecidableEq, Repr

inductive Event
  /-- The logger appends to its file. -/
  | append (text : String)
  /-- The logger goes on in a new file. -/
  | rotate (name : String)
  /-- The follower takes its next step, which may fail. -/
  | poll (succeeds : Bool)
  deriving DecidableEq, Repr

/-- Append to the last of the files. -/
def appendLast (text : String) : List LogFile → List LogFile
  | [] => []
  | [f] => [{ f with content := f.content ++ text }]
  | f :: g :: fs => f :: appendLast text (g :: fs)

namespace Follower

def content (s : Follower) : String :=
  ((s.files.find? (·.name = s.current)).map (·.content)).getD ""

def relocate (s : Follower) : Option String :=
  (locateLatest s.stem (s.others ++ s.files.map (·.name))).filter (· != s.current)

/-- `read_to_string` behind a position. -/
def readToString (content : String) (offset : ℕ) : Option String :=
  String.fromUTF8? (content.toByteArray.extract offset content.utf8ByteSize)

/-- The step of the follower, in a poll whose operation succeeds. -/
def advance (s : Follower) : Follower :=
  match s.poll with
  | .relocating =>
      match s.relocate with
      | some latest => { s with current := latest, offset := 0, poll := .opening }
      | none => { s with poll := .opening }
  | .opening => { s with poll := .measuring }
  | .measuring =>
      let len := s.content.utf8ByteSize
      let offset := if len < s.offset then 0 else s.offset
      { s with offset, poll := if offset < len then .reading len else .relocating }
  | .reading len =>
      match readToString s.content s.offset with
      | some buf => { s with printed := s.printed ++ bytes buf, offset := len, poll := .relocating }
      | none => { s with poll := .relocating }

/-- A new file has a later date than the file before it. -/
def Later (s : Follower) (name : String) : Prop :=
  (stem s ++ ".").toList <+: name.toList ∧ ∀ f ∈ s.files, f.name < name

instance (s : Follower) (name : String) : Decidable (s.Later name) :=
  inferInstanceAs (Decidable (_ ∧ _))

def step (s : Follower) : Event → Option Follower
  | .append text =>
      some { s with files := appendLast text s.files, appended := s.appended ++ bytes text }
  | .rotate name => if s.Later name then some { s with files := s.files ++ [⟨name, ""⟩] } else none
  | .poll true => some s.advance
  | .poll false =>
      -- There is nothing that can fail in the search for a newer file.
      if s.poll = .relocating then none else some { s with poll := .relocating }

/-- The bytes behind an offset of a file and those of all later files. -/
def unread (current : String) (offset : ℕ) : List LogFile → List UInt8
  | [] => []
  | f :: fs =>
      if f.name = current then (bytes f.content).drop offset ++ fs.flatMap (bytes ·.content)
      else unread current offset fs

/-- Every byte that was appended is printed once and in order, or is still to be read. -/
def Lossless (s : Follower) : Prop :=
  s.printed ++ unread s.current s.offset s.files = s.appended

/-- Before a newer file is followed, all the files before it have been read, and a
file is read before more is appended to it. -/
def Keeps (s : Follower) : Event → Prop
  | .poll true =>
      match s.poll with
      | .relocating => s.relocate.isSome = true → unread s.current s.offset s.files.dropLast = []
      | .reading len => s.content.utf8ByteSize = len
      | _ => True
  | _ => True

end Follower

/-! ## The newest file -/

section Locate

variable {stem : String} {names others : List String} {latest : String}

theorem getLast?_insertionSort (hmem : latest ∈ names) (hmax : ∀ name ∈ names, name ≤ latest) :
    (names.insertionSort (· ≤ ·)).getLast? = some latest := by
  have hperm : (names.insertionSort (· ≤ ·)).Perm names := List.perm_insertionSort _ names
  have hsorted : (names.insertionSort (· ≤ ·)).Pairwise (· ≤ ·) := List.pairwise_insertionSort _ names
  rcases List.eq_nil_or_concat (names.insertionSort (· ≤ ·)) with hnil | ⟨init, last, hlast⟩
  · rw [hnil] at hperm
    rw [hperm.nil_eq.symm] at hmem
    cases hmem
  · rw [List.concat_eq_append] at hlast
    rw [hlast] at hperm hsorted ⊢
    have hle : last ≤ latest := hmax last (hperm.mem_iff.mp (by simp))
    have hge : latest ≤ last := by
      rcases List.mem_append.mp (hperm.mem_iff.mpr hmem) with hinit | hlast'
      · exact (List.pairwise_append.mp hsorted).2.2 latest hinit last (List.mem_singleton_self last)
      · exact (List.mem_singleton.mp hlast').le
    rw [List.getLast?_concat, le_antisymm hle hge]

theorem stem_lt_of_dated (h : (stem ++ ".").toList <+: latest.toList) : stem < latest := by
  obtain ⟨rest, hrest⟩ := h
  rw [String.lt_iff_toList_lt, ← hrest, String.toList_append]
  induction stem.toList with
  | nil => exact List.Lex.nil
  | cons c cs ih => exact List.Lex.cons ih

/-- In a directory whose daily files come in order, the last one is located. -/
theorem locateLatest_eq (hordered : (names ++ [latest]).Pairwise (· < ·))
    (hnames : ∀ name ∈ names ++ [latest], name = stem ∨ (stem ++ ".").toList <+: name.toList)
    (hothers : ∀ name ∈ others, name ≠ stem ∧ ¬ (stem ++ ".").toList <+: name.toList) :
    locateLatest stem (others ++ (names ++ [latest])) = some latest := by
  have hbelow : ∀ name ∈ names, name < latest := fun name hname ↦
    (List.pairwise_append.mp hordered).2.2 name hname latest (List.mem_singleton_self latest)
  unfold locateLatest
  rcases hnames latest (by simp) with hstem | hdated
  · have hnil : (others ++ (names ++ [latest])).filter
        (fun name ↦ (stem ++ ".").toList.isPrefixOf name.toList) = [] := by
      rw [List.filter_eq_nil_iff]
      intro name hname hprefixed
      rw [List.isPrefixOf_iff_prefix] at hprefixed
      rcases List.mem_append.mp hname with hname | hname
      · exact (hothers name hname).2 hprefixed
      · have hlt : latest < name := hstem ▸ stem_lt_of_dated hprefixed
        rcases List.mem_append.mp hname with hname | hname
        · exact lt_asymm hlt (hbelow name hname)
        · exact hlt.ne' (List.mem_singleton.mp hname)
    dsimp only
    rw [hnil, List.insertionSort_nil, List.getLast?_nil]
    dsimp only
    rw [if_pos (by simp [hstem]), hstem]
  · have hmem : latest ∈ (others ++ (names ++ [latest])).filter
        (fun name ↦ (stem ++ ".").toList.isPrefixOf name.toList) :=
      List.mem_filter.mpr ⟨by simp, List.isPrefixOf_iff_prefix.mpr hdated⟩
    have hmax : ∀ name ∈ (others ++ (names ++ [latest])).filter
        (fun name ↦ (stem ++ ".").toList.isPrefixOf name.toList), name ≤ latest := by
      intro name hname
      obtain ⟨hname, hprefixed⟩ := List.mem_filter.mp hname
      rw [List.isPrefixOf_iff_prefix] at hprefixed
      rcases List.mem_append.mp hname with hname | hname
      · exact absurd hprefixed (hothers name hname).2
      · rcases List.mem_append.mp hname with hname | hname
        · exact (hbelow name hname).le
        · exact (List.mem_singleton.mp hname).le
    dsimp only
    rw [getLast?_insertionSort hmem hmax]

end Locate

/-! ## Reading -/

section Reading

variable {content text : String} {offset : ℕ}

theorem bytes_append (a b : String) : bytes (a ++ b) = bytes a ++ bytes b := by
  simp [bytes, String.toByteArray_append]

theorem length_bytes (a : String) : (bytes a).length = a.utf8ByteSize := by
  rw [← String.size_toByteArray]
  exact Array.length_toList

/-- A position between two characters. -/
def IsBoundary (content : String) (offset : ℕ) : Prop :=
  ∃ seen rest, content = seen ++ rest ∧ seen.utf8ByteSize = offset

theorem isBoundary_end (content : String) : IsBoundary content content.utf8ByteSize :=
  ⟨content, "", by simp, rfl⟩

theorem IsBoundary.append (h : IsBoundary content offset) (text : String) :
    IsBoundary (content ++ text) offset := by
  obtain ⟨seen, rest, rfl, rfl⟩ := h
  exact ⟨seen, rest ++ text, String.append_assoc, rfl⟩

theorem IsBoundary.le (h : IsBoundary content offset) : offset ≤ content.utf8ByteSize := by
  obtain ⟨seen, rest, rfl, rfl⟩ := h
  rw [String.utf8ByteSize_append]
  exact Nat.le_add_right _ _

/-- What is read behind a boundary are the bytes there. -/
theorem readToString_of_isBoundary (h : IsBoundary content offset) :
    ∃ buf, Follower.readToString content offset = some buf ∧
      bytes buf = (bytes content).drop offset := by
  obtain ⟨seen, rest, rfl, rfl⟩ := h
  refine ⟨rest, ?_, ?_⟩
  · have hbytes : (seen ++ rest).toByteArray.extract seen.utf8ByteSize (seen ++ rest).utf8ByteSize =
        rest.toByteArray := by
      rw [String.toByteArray_append, String.utf8ByteSize_append]
      exact ByteArray.extract_append_eq_right rfl rfl
    rw [Follower.readToString, hbytes, String.fromUTF8?, dif_pos rest.isValidUTF8]
    rfl
  · rw [bytes_append, ← length_bytes, List.drop_left]

end Reading

/-! ## Files and what is unread in them -/

namespace Follower

section Unread

variable {files older newer : List LogFile} {f : LogFile} {current name text content : String}
  {offset : ℕ}

theorem unread_append_of_mem (h : current ∈ older.map (·.name)) :
    unread current offset (older ++ newer) =
      unread current offset older ++ newer.flatMap (bytes ·.content) := by
  induction older with
  | nil => cases h
  | cons g older ih =>
      rw [List.cons_append, unread, unread]
      split_ifs with hg
      · rw [List.flatMap_append, List.append_assoc]
      · rw [List.map_cons, List.mem_cons] at h
        exact ih (h.resolve_left fun heq ↦ hg heq.symm)

theorem unread_append_of_not (h : current ∉ older.map (·.name)) :
    unread current offset (older ++ newer) = unread current offset newer := by
  induction older with
  | nil => rfl
  | cons g older ih =>
      rw [List.map_cons, List.mem_cons, not_or] at h
      rw [List.cons_append, unread, if_neg fun heq ↦ h.1 heq.symm, ih h.2]

theorem unread_split (h : current ∉ older.map (·.name)) :
    unread current offset (older ++ ⟨current, content⟩ :: newer) =
      (bytes content).drop offset ++ newer.flatMap (bytes ·.content) := by
  rw [unread_append_of_not h, unread, if_pos rfl]

theorem appendLast_concat (init : List LogFile) :
    appendLast text (init ++ [f]) = init ++ [{ f with content := f.content ++ text }] := by
  induction init with
  | nil => rfl
  | cons g init ih =>
      cases init with
      | nil => rfl
      | cons h init => exact congrArg (g :: ·) ih

theorem map_name_appendLast (files : List LogFile) :
    (appendLast text files).map (·.name) = files.map (·.name) := by
  rcases List.eq_nil_or_concat files with rfl | ⟨init, f, rfl⟩
  · rfl
  · rw [List.concat_eq_append, appendLast_concat, List.map_append, List.map_append]
    rfl

end Unread

/-- The files come in the order of their names, all daily files but for a first
one without a date, and the follower stands between two characters. -/
structure WellFormed (s : Follower) : Prop where
  ordered : (s.files.map (·.name)).Pairwise (· < ·)
  dated : ∀ name ∈ s.files.map (·.name),
    name = s.stem ∨ (s.stem ++ ".").toList <+: name.toList
  others : ∀ name ∈ s.others, name ≠ s.stem ∧ ¬ (s.stem ++ ".").toList <+: name.toList
  current : s.current ∈ s.files.map (·.name)
  offset : IsBoundary s.content s.offset
  reading : ∀ len, s.poll = .reading len → IsBoundary s.content len ∧ s.offset < len

section Steps

variable {s t : Follower} {e : Event} {older newer : List LogFile} {f : LogFile}
  {text name content : String}

theorem content_of_split (hfiles : s.files = older ++ ⟨s.current, content⟩ :: newer)
    (hcurrent : s.current ∉ older.map (·.name)) : s.content = content := by
  have hnone : older.find? (·.name = s.current) = none := by
    rw [List.find?_eq_none]
    intro g hg hname
    exact hcurrent (List.mem_map.mpr ⟨g, hg, of_decide_eq_true hname⟩)
  rw [Follower.content, hfiles, List.find?_append, hnone, Option.none_or,
    List.find?_cons_of_pos (by simp)]
  rfl

theorem exists_split (hcurrent : s.current ∈ s.files.map (·.name)) :
    ∃ older newer, s.files = older ++ ⟨s.current, s.content⟩ :: newer ∧
      s.current ∉ older.map (·.name) := by
  obtain ⟨g, hg, hname⟩ := List.mem_map.mp hcurrent
  have hsome : (s.files.find? (·.name = s.current)).isSome = true :=
    List.find?_isSome.mpr ⟨g, hg, decide_eq_true hname⟩
  obtain ⟨f, hf⟩ := Option.isSome_iff_exists.mp hsome
  obtain ⟨hfname, older, newer, hfiles, holder⟩ := List.find?_eq_some_iff_append.mp hf
  have hcurrent' : s.current ∉ older.map (·.name) := by
    intro hmem
    obtain ⟨g, hg, hname⟩ := List.mem_map.mp hmem
    have hne := holder g hg
    rw [decide_eq_true hname] at hne
    cases hne
  obtain ⟨fname, fcontent⟩ := f
  obtain rfl : fname = s.current := of_decide_eq_true hfname
  exact ⟨older, newer, by rw [content_of_split hfiles hcurrent', hfiles], hcurrent'⟩

/-- An append makes the bytes longer that are still to be read. -/
theorem WellFormed.append (h : s.WellFormed) :
    ({ s with files := appendLast text s.files, appended := s.appended ++ bytes text } :
      Follower).WellFormed ∧
    unread s.current s.offset (appendLast text s.files) =
      unread s.current s.offset s.files ++ bytes text := by
  obtain ⟨older, newer, hfiles, hcurrent⟩ := exists_split h.current
  have hnames := @map_name_appendLast text s.files
  have hrest : ∀ content', (content' = s.content ∨ content' = s.content ++ text) →
      IsBoundary content' s.offset ∧ ∀ len, s.poll = .reading len →
        IsBoundary content' len ∧ s.offset < len := by
    rintro content' (rfl | rfl)
    · exact ⟨h.offset, h.reading⟩
    · exact ⟨h.offset.append text, fun len hlen ↦
        ⟨(h.reading len hlen).1.append text, (h.reading len hlen).2⟩⟩
  have hkeep : ∀ content' newer', appendLast text s.files = older ++ ⟨s.current, content'⟩ :: newer' →
      (content' = s.content ∨ content' = s.content ++ text) →
      ({ s with files := appendLast text s.files, appended := s.appended ++ bytes text } :
        Follower).WellFormed := by
    intro content' newer' hsplit hcontent'
    have hcontent : ({ s with files := appendLast text s.files, appended := s.appended ++ bytes text } :
        Follower).content = content' := content_of_split hsplit hcurrent
    refine ⟨hnames ▸ h.ordered, hnames ▸ h.dated, h.others, hnames ▸ h.current, ?_, ?_⟩
    · rw [hcontent]
      exact (hrest content' hcontent').1
    · rw [hcontent]
      exact (hrest content' hcontent').2
  rcases List.eq_nil_or_concat newer with rfl | ⟨mid, f, rfl⟩
  · have hsplit : appendLast text s.files = older ++ [⟨s.current, s.content ++ text⟩] := by
      rw [hfiles, appendLast_concat]
    refine ⟨hkeep _ [] hsplit (.inr rfl), ?_⟩
    have hle : s.offset ≤ (bytes s.content).length := by
      rw [length_bytes]
      exact h.offset.le
    rw [hsplit, hfiles, unread_split hcurrent, unread_split hcurrent, bytes_append,
      List.drop_append_of_le_length hle, List.flatMap_nil, List.append_nil, List.append_nil]
  · rw [List.concat_eq_append] at hfiles
    have hsplit : appendLast text s.files =
        older ++ ⟨s.current, s.content⟩ :: (mid ++ [{ f with content := f.content ++ text }]) := by
      rw [hfiles, ← List.cons_append, ← List.append_assoc, appendLast_concat, List.append_assoc,
        List.cons_append]
    refine ⟨hkeep _ _ hsplit (.inl rfl), ?_⟩
    rw [hsplit, hfiles, unread_split hcurrent, unread_split hcurrent]
    simp [bytes_append]

/-- A new file holds nothing yet. -/
theorem WellFormed.rotate (h : s.WellFormed) (hlater : s.Later name) :
    ({ s with files := s.files ++ [⟨name, ""⟩] } : Follower).WellFormed ∧
    unread s.current s.offset (s.files ++ [⟨name, ""⟩]) = unread s.current s.offset s.files := by
  obtain ⟨older, newer, hfiles, hcurrent⟩ := exists_split h.current
  have hcontent : ({ s with files := s.files ++ [⟨name, ""⟩] } : Follower).content = s.content := by
    refine @content_of_split _ older (newer ++ [⟨name, ""⟩]) _ ?_ hcurrent
    rw [hfiles, List.append_assoc, List.cons_append]
  have hnames : (s.files ++ [(⟨name, ""⟩ : LogFile)]).map (·.name) =
      s.files.map (·.name) ++ [name] := by
    rw [List.map_append, List.map_singleton]
  constructor
  · refine ⟨?_, ?_, h.others, ?_, by rw [hcontent]; exact h.offset, by rw [hcontent]; exact h.reading⟩
    · rw [hnames, List.pairwise_append]
      refine ⟨h.ordered, List.pairwise_singleton _ _, fun a ha b hb ↦ ?_⟩
      obtain ⟨g, hg, rfl⟩ := List.mem_map.mp ha
      rw [List.mem_singleton.mp hb]
      exact hlater.2 g hg
    · rw [hnames]
      intro a ha
      rcases List.mem_append.mp ha with ha | ha
      · exact h.dated a ha
      · rw [List.mem_singleton.mp ha]
        exact .inr hlater.1
    · rw [hnames]
      exact List.mem_append_left _ h.current
  · have hempty : bytes "" = [] := List.eq_nil_of_length_eq_zero (length_bytes "")
    rw [unread_append_of_mem h.current, List.flatMap_singleton, hempty, List.append_nil]

/-- A follower goes on to the newest file, if it does not follow it already. -/
theorem WellFormed.relocate_cases (h : s.WellFormed) :
    (s.relocate = none ∧ ∃ older, s.files = older ++ [⟨s.current, s.content⟩] ∧
      s.current ∉ older.map (·.name)) ∨
    ∃ init f, s.relocate = some f.name ∧ s.files = init ++ [f] ∧ f.name ∉ init.map (·.name) ∧
      s.current ∈ init.map (·.name) := by
  obtain ⟨older, newer, hfiles, hcurrent⟩ := exists_split h.current
  have hlocate : ∀ init f, s.files = init ++ [f] →
      locateLatest s.stem (s.others ++ s.files.map (·.name)) = some f.name := by
    intro init f hinit
    have hnames : s.files.map (·.name) = init.map (·.name) ++ [f.name] := by
      rw [hinit, List.map_append, List.map_singleton]
    have hordered := h.ordered
    have hdated := h.dated
    rw [hnames] at hordered hdated ⊢
    exact locateLatest_eq hordered hdated h.others
  rcases List.eq_nil_or_concat newer with rfl | ⟨mid, f, rfl⟩
  · refine .inl ⟨?_, older, hfiles, hcurrent⟩
    rw [relocate, hlocate older _ hfiles, Option.filter_some]
    simp
  · have hinit : s.files = (older ++ ⟨s.current, s.content⟩ :: mid) ++ [f] := by
      rw [hfiles, List.concat_eq_append, List.append_assoc, List.cons_append]
    have hmem : s.current ∈ (older ++ ⟨s.current, s.content⟩ :: mid).map (·.name) := by simp
    have hordered := h.ordered
    rw [hinit, List.map_append, List.pairwise_append] at hordered
    have hbelow : ∀ name ∈ (older ++ ⟨s.current, s.content⟩ :: mid).map (·.name), name < f.name :=
      fun name hname ↦ hordered.2.2 name hname f.name (by simp)
    refine .inr ⟨_, f, ?_, hinit, fun hf ↦ lt_irrefl _ (hbelow _ hf), hmem⟩
    rw [relocate, hlocate _ _ hinit, Option.filter_some, if_pos]
    exact bne_iff_ne.mpr (hbelow _ hmem).ne'

theorem WellFormed.of_poll (h : s.WellFormed) {poll : Poll} (hpoll : ∀ len, poll ≠ .reading len) :
    ({ s with poll } : Follower).WellFormed :=
  ⟨h.ordered, h.dated, h.others, h.current, h.offset, fun len hlen ↦ absurd hlen (hpoll len)⟩

/-- What is unread in the files before a newer one is lost when that is followed. -/
theorem WellFormed.advance_relocating (h : s.WellFormed) (hpoll : s.poll = .relocating) :
    s.advance.WellFormed ∧ (s.Lossless → (s.advance.Lossless ↔ s.Keeps (.poll true))) := by
  rcases h.relocate_cases with ⟨hnone, -⟩ | ⟨init, f, hsome, hfiles, hfresh, hcurrent⟩
  · have hadvance : s.advance = { s with poll := .opening } := by
      rw [Follower.advance, hpoll]
      dsimp only
      rw [hnone]
    rw [hadvance, Keeps, hpoll]
    dsimp only
    rw [hnone]
    refine ⟨h.of_poll nofun, fun hlossless ↦ iff_of_true hlossless ?_⟩
    exact fun hsome ↦ by cases hsome
  · have hadvance : s.advance = { s with current := f.name, offset := 0, poll := .opening } := by
      rw [Follower.advance, hpoll]
      dsimp only
      rw [hsome]
    have hmem : f.name ∈ s.files.map (·.name) := by
      rw [hfiles]
      simp
    have hunread : unread f.name 0 s.files = bytes f.content := by
      rw [hfiles, unread_append_of_not hfresh, unread, if_pos rfl, List.flatMap_nil,
        List.append_nil, List.drop_zero]
    have hunread' : unread s.current s.offset s.files =
        unread s.current s.offset init ++ bytes f.content := by
      rw [hfiles, unread_append_of_mem hcurrent, List.flatMap_singleton]
    rw [hadvance, Keeps, hpoll]
    dsimp only
    have hdrop : s.files.dropLast = init := by rw [hfiles, List.dropLast_concat]
    rw [hsome, hdrop]
    refine ⟨⟨h.ordered, h.dated, h.others, hmem, ⟨"", _, String.empty_append.symm, rfl⟩, nofun⟩,
      fun hlossless ↦ ?_⟩
    rw [Lossless, hunread'] at hlossless
    rw [Lossless]
    dsimp only
    rw [hunread, ← hlossless, List.append_cancel_left_eq, List.self_eq_append_left]
    exact ⟨fun hnil _ ↦ hnil, fun hnil ↦ hnil rfl⟩

/-- Bytes behind the length that was read are printed, but they stay unread. -/
theorem WellFormed.advance_reading (h : s.WellFormed) {len : ℕ} (hpoll : s.poll = .reading len) :
    s.advance.WellFormed ∧ (s.Lossless → (s.advance.Lossless ↔ s.Keeps (.poll true))) := by
  obtain ⟨buf, hread, hbuf⟩ := readToString_of_isBoundary h.offset
  obtain ⟨hlen, -⟩ := h.reading len hpoll
  obtain ⟨older, newer, hfiles, hcurrent⟩ := exists_split h.current
  have hadvance : s.advance =
      { s with printed := s.printed ++ bytes buf, offset := len, poll := .relocating } := by
    rw [Follower.advance, hpoll]
    dsimp only
    rw [hread]
  rw [hadvance, Keeps, hpoll]
  refine ⟨⟨h.ordered, h.dated, h.others, h.current, hlen, nofun⟩, fun hlossless ↦ ?_⟩
  rw [Lossless, hfiles, unread_split hcurrent] at hlossless
  rw [Lossless]
  dsimp only
  rw [hfiles, unread_split hcurrent, hbuf, ← hlossless, List.append_assoc,
    List.append_cancel_left_eq, List.append_cancel_left_eq, List.append_left_eq_self,
    List.drop_eq_nil_iff, length_bytes]
  exact ⟨fun hle ↦ le_antisymm hle hlen.le, fun heq ↦ heq.le⟩

theorem WellFormed.advance (h : s.WellFormed) :
    s.advance.WellFormed ∧ (s.Lossless → (s.advance.Lossless ↔ s.Keeps (.poll true))) := by
  cases hpoll : s.poll with
  | relocating => exact h.advance_relocating hpoll
  | opening =>
      rw [Follower.advance, Keeps, hpoll]
      exact ⟨h.of_poll nofun, fun hlossless ↦ iff_of_true hlossless trivial⟩
  | measuring =>
      have hle : ¬ s.content.utf8ByteSize < s.offset := h.offset.le.not_gt
      rw [Follower.advance, Keeps, hpoll]
      dsimp only
      rw [if_neg hle]
      refine ⟨⟨h.ordered, h.dated, h.others, h.current, h.offset, fun len hlen ↦ ?_⟩,
        fun hlossless ↦ iff_of_true hlossless trivial⟩
      dsimp only at hlen ⊢
      split_ifs at hlen with hlt
      cases hlen
      exact ⟨isBoundary_end _, hlt⟩
  | reading len => exact h.advance_reading hpoll

/-- Every step keeps the files in order, and it loses nothing as long as it keeps
what is still to be read. -/
theorem WellFormed.step (h : s.WellFormed) (hstep : s.step e = some t) :
    t.WellFormed ∧ (s.Lossless → (t.Lossless ↔ s.Keeps e)) := by
  cases e with
  | append text =>
      cases hstep
      obtain ⟨hwell, hunread⟩ := @WellFormed.append s text h
      refine ⟨hwell, fun hlossless ↦ iff_of_true ?_ trivial⟩
      rw [Lossless] at hlossless ⊢
      dsimp only
      rw [hunread, ← List.append_assoc, hlossless]
  | rotate name =>
      rw [Follower.step] at hstep
      split_ifs at hstep with hlater
      cases hstep
      obtain ⟨hwell, hunread⟩ := h.rotate hlater
      refine ⟨hwell, fun hlossless ↦ iff_of_true ?_ trivial⟩
      rw [Lossless] at hlossless ⊢
      dsimp only
      rw [hunread, hlossless]
  | poll succeeds =>
      cases succeeds with
      | true =>
          cases hstep
          exact h.advance
      | false =>
          rw [Follower.step] at hstep
          split_ifs at hstep with hrelocating
          cases hstep
          exact ⟨h.of_poll nofun,
            fun hlossless ↦ iff_of_true hlossless trivial⟩

/-- The follower follows the newest file. -/
def FollowsNewest (s : Follower) : Prop :=
  ∃ older, s.files = older ++ [⟨s.current, s.content⟩] ∧ s.current ∉ older.map (·.name)

theorem FollowsNewest.unread_eq (h : s.FollowsNewest) :
    unread s.current s.offset s.files = (bytes s.content).drop s.offset := by
  obtain ⟨older, hfiles, hcurrent⟩ := h
  rw [hfiles, unread_split hcurrent, List.flatMap_nil, List.append_nil]

theorem WellFormed.followsNewest (h : s.WellFormed) (hpoll : s.poll = .relocating) :
    s.advance.FollowsNewest ∧ s.advance.poll = .opening := by
  rw [Follower.advance, hpoll]
  dsimp only
  rcases h.relocate_cases with ⟨hnone, hnewest⟩ | ⟨init, f, hsome, hfiles, hfresh, -⟩
  · rw [hnone]
    exact ⟨hnewest, rfl⟩
  · rw [hsome]
    have hcontent : ({ s with current := f.name, offset := 0, poll := .opening } : Follower).content =
        f.content := @content_of_split _ init [] _ hfiles hfresh
    exact ⟨⟨init, by rw [hcontent]; exact hfiles, hfresh⟩, rfl⟩

theorem appended_advance (s : Follower) : s.advance.appended = s.appended := by
  unfold Follower.advance
  split
  · split <;> rfl
  · rfl
  · rfl
  · split <;> rfl

/-- The length of the newest file is read, and then what lies behind the offset. -/
theorem FollowsNewest.advance_measuring (hnewest : s.FollowsNewest) (h : s.WellFormed)
    (hlossless : s.Lossless) (hpoll : s.poll = .measuring) :
    s.advance.advance.printed = s.appended := by
  have hle : ¬ s.content.utf8ByteSize < s.offset := h.offset.le.not_gt
  rw [Lossless, hnewest.unread_eq] at hlossless
  by_cases hlt : s.offset < s.content.utf8ByteSize
  · have hadvance : s.advance = { s with poll := .reading s.content.utf8ByteSize } := by
      rw [Follower.advance, hpoll]
      dsimp only
      rw [if_neg hle, if_pos hlt]
    obtain ⟨buf, hread, hbuf⟩ := readToString_of_isBoundary h.offset
    have hread' : readToString ({ s with poll := .reading s.content.utf8ByteSize } : Follower).content
        s.offset = some buf := hread
    rw [hadvance, Follower.advance]
    dsimp only
    rw [hread']
    dsimp only
    rw [hbuf, hlossless]
  · have hadvance : s.advance = { s with poll := .relocating } := by
      rw [Follower.advance, hpoll]
      dsimp only
      rw [if_neg hle, if_neg hlt]
    have hnil : (bytes s.content).drop s.offset = [] := by
      rw [List.drop_eq_nil_iff, length_bytes]
      exact not_lt.mp hlt
    rw [hnil, List.append_nil] at hlossless
    rw [hadvance, Follower.advance]
    dsimp only
    split <;> exact hlossless

/-- A whole poll without a write in between reads the newest file to its end. -/
theorem WellFormed.catches_up (h : s.WellFormed) (hlossless : s.Lossless)
    (hpoll : s.poll = .relocating) (hkeeps : s.Keeps (.poll true)) :
    ∃ t, run Follower.step s (List.replicate 4 (.poll true)) = some t ∧ t.printed = s.appended ∧
      t.appended = s.appended := by
  obtain ⟨hwell₁, hiff⟩ := h.advance
  obtain ⟨hnewest, hopening⟩ := h.followsNewest hpoll
  have hlossless₁ := (hiff hlossless).mpr hkeeps
  have hmeasuring : s.advance.advance = { s.advance with poll := .measuring } := by
    rw [Follower.advance.eq_def s.advance, hopening]
  have hwell₂ := hwell₁.advance.1
  rw [hmeasuring] at hwell₂
  have hprinted := @FollowsNewest.advance_measuring { s.advance with poll := .measuring } hnewest
    hwell₂ hlossless₁ rfl
  rw [← hmeasuring] at hprinted
  refine ⟨s.advance.advance.advance.advance, rfl, hprinted.trans ?_, ?_⟩
  · rw [appended_advance, appended_advance]
  · rw [appended_advance, appended_advance, appended_advance, appended_advance]

end Steps

/-- A follower that has just fixed its first offset, at the end of its file. -/
structure Starts (s : Follower) : Prop where
  wellFormed : s.WellFormed
  poll : s.poll = .relocating
  offset : s.offset = s.content.utf8ByteSize
  printed : s.printed = []
  appended : s.appended = unread s.current s.offset s.files

theorem wellFormed_throughout {s : Follower} (h : s.WellFormed) (events : List Event) :
    Throughout step WellFormed s events := fun _ _ _ hrun ↦
  run_invariant_of_step (fun _ _ _ hs hstep ↦ (hs.step hstep).1) h hrun

/-- The follower loses and repeats nothing exactly as long as it finds no newer
file before it has read the others, and no file that has grown since its length
was read.  It then prints everything as soon as a whole poll goes by without a
write. -/
theorem lossless_iff_keeps {s : Follower} (hs : s.Starts) (events : List Event) :
    (Throughout step Lossless s events ↔
      Within step (fun s e ↦ (s.step e).isSome → s.Keeps e) s events) ∧
    (Throughout step Lossless s events → ∀ before, before <+: events → ∀ t ∈ run step s before,
      t.poll = .relocating → t.Keeps (.poll true) →
        ∃ u, run step t (List.replicate 4 (.poll true)) = some u ∧ u.printed = t.appended ∧
          u.appended = t.appended) := by
  have hwell := wellFormed_throughout hs.wellFormed events
  have hstart : s.Lossless := by
    rw [Lossless, hs.printed, hs.appended, List.nil_append]
  constructor
  · have hiff : Throughout step Lossless s events ↔
        Throughout step (fun t ↦ t.WellFormed ∧ t.Lossless) s events :=
      ⟨fun h pre hpre t ht ↦ ⟨hwell pre hpre t ht, h pre hpre t ht⟩,
        fun h pre hpre t ht ↦ (h pre hpre t ht).2⟩
    rw [hiff, throughout_iff_within fun s e t hs hstep ↦ ?_]
    · exact and_iff_right ⟨hs.wellFormed, hstart⟩
    · obtain ⟨hnext, hkeeps⟩ := hs.1.step hstep
      rw [and_iff_right hnext, hkeeps hs.2]
  · intro hlossless before hbefore t ht hpoll hkeeps
    exact (hwell before hbefore t ht).catches_up (hlossless before hbefore t ht) hpoll hkeeps

/-- A log of one day, whose end the follower has just been placed at. -/
def today : Follower where
  stem := "node.log"
  files := [⟨"node.log.2026-06-16", "old\n"⟩, ⟨"node.log.2026-06-17", "up\n"⟩]
  others := ["client.log.2026-06-17"]
  current := "node.log.2026-06-17"
  offset := 3
  poll := .relocating
  printed := []
  appended := []

theorem starts_today : today.Starts := by
  refine ⟨⟨by decide, by decide, by decide, by decide, ?_, nofun⟩, rfl, by decide, rfl, by decide⟩
  exact isBoundary_end "up\n"

instance : ∀ (s : Follower) (e : Event), Decidable (s.Keeps e)
  | ⟨_, _, _, _, _, .relocating, _, _⟩, .poll true =>
      inferInstanceAs (Decidable (_ = true → _ = []))
  | ⟨_, _, _, _, _, .reading _, _, _⟩, .poll true => inferInstanceAs (Decidable (_ = _))
  | ⟨_, _, _, _, _, .opening, _, _⟩, .poll true | ⟨_, _, _, _, _, .measuring, _, _⟩, .poll true
  | _, .poll false | _, .append _ | _, .rotate _ => .isTrue trivial

/-- A line is printed, then the logger goes on in a new file and writes another. -/
def overnight : List Event :=
  [.append "a\n", .poll true, .poll true, .poll true, .poll true, .rotate "node.log.2026-06-18",
    .append "b\n"]

theorem lossless_iff_keeps_today :
    Throughout step Lossless today overnight ∧
      ∃ t u, run step today overnight = some t ∧ t.printed = bytes "a\n" ∧
        run step t (List.replicate 4 (.poll true)) = some u ∧ u.printed = bytes "a\nb\n" := by
  obtain ⟨hiff, hcatch⟩ := lossless_iff_keeps starts_today overnight
  have hlossless : Throughout step Lossless today overnight := hiff.mpr (by decide +kernel)
  obtain ⟨t, ht⟩ : ∃ t, run step today overnight = some t := ⟨_, rfl⟩
  have hprinted : t.printed = bytes "a\n" ∧ t.appended = bytes "a\nb\n" ∧ t.poll = .relocating ∧
      t.Keeps (.poll true) := by
    obtain rfl := Option.some.inj ht
    decide +kernel
  obtain ⟨hfirst, happended, hpoll, hkeeps⟩ := hprinted
  obtain ⟨u, hu, hall, -⟩ := hcatch hlossless overnight (List.prefix_refl _) t ht hpoll hkeeps
  exact ⟨hlossless, t, u, ht, hfirst, hu, hall.trans happended⟩

instance (s : Follower) : Decidable s.Lossless := inferInstanceAs (Decidable (_ = _))

/-- A line written between the two reads is printed twice; one written before the
logger goes on in a new file is never printed. -/
theorem not_lossless_today :
    ¬ Throughout step Lossless today
      [.append "a\n", .poll true, .poll true, .poll true, .append "b\n", .poll true] ∧
    ¬ Throughout step Lossless today [.append "a\n", .rotate "node.log.2026-06-18", .poll true] := by
  constructor
  · intro h
    have hrepeated := h _ (List.prefix_refl _) _ rfl
    revert hrepeated
    decide +kernel
  · intro h
    have hlost := h _ (List.prefix_refl _) _ rfl
    revert hlost
    decide +kernel

end Follower

end Oxiproxy.LogViewer
