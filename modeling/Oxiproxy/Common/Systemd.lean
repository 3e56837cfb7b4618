import Oxiproxy.Common.NormalForms

/-!
# systemd units

The text of the unit that a service is installed with, and what is read back from
it: the command line, by the quoting rules of systemd, and the path of the log file.
-/

namespace Oxiproxy.Systemd

structure SystemdServiceConfig where
  serviceName : String
  description : String
  binaryPath : String
  args : List String
  workingDir : String
  user : Option String
  deriving DecidableEq, Repr

/-- `Path::join` -/
def join (path child : String) : String :=
  if child.toList.head? = some '/' then child
  else if path.toList.getLast?.any (· != '/') then path ++ "/" ++ child
  else path ++ child

def logFilePath (config : SystemdServiceConfig) : String :=
  join (join config.workingDir "log") (config.serviceName ++ ".log")

/-- `str::replace` of a character. -/
def replace (c : Char) (text cs : List Char) : List Char :=
  cs.flatMap fun d ↦ if d = c then text else [d]

def isPlain (c : Char) : Bool := c.isAlphanum || "-_./:=@+,".toList.contains c

def quoteArg (arg : String) : String :=
  let needsQuote := arg.isEmpty || arg.toList.any fun c ↦ !isPlain c
  if !needsQuote then arg
  else
    let escaped := replace '$' ['\\', '$']
      (replace '"' ['\\', '"'] (replace '\\' ['\\', '\\'] arg.toList))
    String.ofList ('"' :: escaped ++ ['"'])

def buildExecStart (binary : String) (args : List String) : String :=
  " ".intercalate (quoteArg binary :: args.map quoteArg)

def renderUnit (config : SystemdServiceConfig) : String :=
  let execStart := buildExecStart config.binaryPath config.args
  let userLine := match config.user with
    | some u => "User=" ++ u ++ "\n"
    | none => ""
  let logPath := logFilePath config
  "[Unit]" ++ "\n" ++
  "Description=" ++ config.description ++ "\n" ++
  "After=network-online.target" ++ "\n" ++
  "Wants=network-online.target" ++ "\n" ++
  "\n" ++
  "[Service]" ++ "\n" ++
  "Type=simple" ++ "\n" ++
  "ExecStart=" ++ execStart ++ "\n" ++
  "WorkingDirectory=" ++ config.workingDir ++ "\n" ++
  userLine ++ "Restart=on-failure" ++ "\n" ++
  "RestartSec=5s" ++ "\n" ++
  "LimitNOFILE=65536" ++ "\n" ++
  "StandardOutput=append:" ++ logPath ++ "\n" ++
  "StandardError=append:" ++ logPath ++ "\n" ++
  "\n" ++
  "[Install]" ++ "\n" ++
  "WantedBy=multi-user.target" ++ "\n"

/-- The end of a line, without the carriage return in front of a line feed. -/
def stripReturn (line : List Char) : List Char :=
  if line.getLast? = some '\r' then line.dropLast else line

/-- `str::lines` -/
def lines (cs : List Char) : List (List Char) :=
  let parts := splitOn '\n' cs
  parts.dropLast.map stripReturn ++ (parts.getLast?.filter (· ≠ [])).toList

def stripPrefix (start line : List Char) : Option (List Char) :=
  if start.isPrefixOf line then some (line.drop start.length) else none

def parseUnitLogPath (unitContent : String) : Option String :=
  (((lines unitContent.toList).map trimChars).findSome?
    (stripPrefix "StandardOutput=append:".toList)).map String.ofList

/-! ## Command lines -/

/-- The value of `ExecStart` in a unit. -/
def execStart (unitContent : String) : Option (List Char) :=
  (splitOn '\n' unitContent.toList).findSome? (stripPrefix "ExecStart=".toList)

def isBlank (c : Char) : Bool := c == ' ' || c == '\t'

/-- The words of a command line: they end at blanks outside double quotes, and inside
these a backslash stands before a quote, a backslash or a dollar sign.  `word` is
the word that is being read, if there is one. -/
def splitWords (word : Option (List Char)) (quoted : Bool) : List Char → Option (List (List Char))
  | [] => if quoted then none else some word.toList
  | c :: cs =>
      if quoted then
        match c, cs with
        | '"', cs => splitWords word false cs
        | '\\', d :: cs =>
            if d = '"' ∨ d = '\\' ∨ d = '$' then splitWords (some (word.getD [] ++ [d])) true cs
            else splitWords (some (word.getD [] ++ ['\\'])) true (d :: cs)
        | c, cs => splitWords (some (word.getD [] ++ [c])) true cs
      else if c = '"' then splitWords (some (word.getD [])) true cs
      else if isBlank c then (splitWords none false cs).map (word.toList ++ ·)
      else splitWords (some (word.getD [] ++ [c])) false cs

/-- The command and its arguments, as systemd reads them. -/
def commandLine (unitContent : String) : Option (List String) :=
  ((execStart unitContent).bind (splitWords none false)).map (·.map String.ofList)

/-! ## Quoting -/

section Quoting

variable {arg : String} {cs rest word : List Char}

/-- A backslash in front of each of the three characters. -/
def escape (cs : List Char) : List Char :=
  cs.flatMap fun c ↦ if c = '"' ∨ c = '\\' ∨ c = '$' then ['\\', c] else [c]

theorem escape_append (as bs : List Char) : escape (as ++ bs) = escape as ++ escape bs :=
  List.flatMap_append

theorem replace_append (c : Char) (text as bs : List Char) :
    replace c text (as ++ bs) = replace c text as ++ replace c text bs := List.flatMap_append

/-- The replacements, one after the other, put a backslash in front of each character once. -/
theorem replace_replace_replace (cs : List Char) :
    replace '$' ['\\', '$'] (replace '"' ['\\', '"'] (replace '\\' ['\\', '\\'] cs)) =
      escape cs := by
  induction cs with
  | nil => rfl
  | cons c cs ih =>
      have hcons : ∀ (d : Char) text, replace d text (c :: cs) =
          replace d text [c] ++ replace d text cs :=
        fun d text ↦ replace_append d text [c] cs
      rw [hcons, replace_append, replace_append, ih]
      have hescape : escape (c :: cs) = escape [c] ++ escape cs := escape_append [c] cs
      rw [hescape]
      congr 1
      by_cases hback : c = '\\'
      · subst hback
        decide
      by_cases hquote : c = '"'
      · subst hquote
        decide
      by_cases hdollar : c = '$'
      · subst hdollar
        decide
      simp [replace, escape, hback, hquote, hdollar]

/-- Escaped characters are read as they are, inside quotes. -/
theorem splitWords_escape (cs rest word : List Char) :
    splitWords (some word) true (escape cs ++ '"' :: rest) =
      splitWords (some (word ++ cs)) false rest := by
  induction cs generalizing word with
  | nil =>
      rw [List.append_nil]
      rfl
  | cons c cs ih =>
      have hcons : escape (c :: cs) = escape [c] ++ escape cs := escape_append [c] cs
      have hrest : word ++ c :: cs = (word ++ [c]) ++ cs := by simp
      rw [hcons, hrest, ← ih]
      by_cases hspecial : c = '"' ∨ c = '\\' ∨ c = '$'
      · rw [escape, List.flatMap_singleton, if_pos hspecial]
        simp [splitWords, hspecial]
      · rw [escape, List.flatMap_singleton, if_neg hspecial]
        rw [not_or, not_or] at hspecial
        simp [splitWords, hspecial]

/-- One character outside quotes. -/
theorem splitWords_unquoted (word : Option (List Char)) (c : Char) (cs : List Char) :
    splitWords word false (c :: cs) =
      if c = '"' then splitWords (some (word.getD [])) true cs
      else if isBlank c then (splitWords none false cs).map (word.toList ++ ·)
      else splitWords (some (word.getD [] ++ [c])) false cs := by
  rw [splitWords.eq_def]
  rfl

theorem ne_of_isPlain {c : Char} (hc : isPlain c = true) : c ≠ '"' ∧ isBlank c = false := by
  constructor
  · rintro rfl
    exact absurd hc (by decide)
  · rw [isBlank, Bool.or_eq_false_iff, beq_eq_false_iff_ne, beq_eq_false_iff_ne]
    constructor <;>
    · rintro rfl
      exact absurd hc (by decide)

/-- Plain characters are read as they are, outside quotes. -/
theorem splitWords_plain (hplain : ∀ c ∈ cs, isPlain c = true) (rest word : List Char) :
    splitWords (some word) false (cs ++ rest) = splitWords (some (word ++ cs)) false rest := by
  induction cs generalizing word with
  | nil => rw [List.append_nil, List.nil_append]
  | cons c cs ih =>
      obtain ⟨hc, hcs⟩ := List.forall_mem_cons.mp hplain
      obtain ⟨hquote, hblank⟩ := ne_of_isPlain hc
      have hrest : word ++ c :: cs = (word ++ [c]) ++ cs := by simp
      rw [hrest, ← ih hcs, List.cons_append, splitWords_unquoted, if_neg hquote, hblank,
        if_neg Bool.false_ne_true, Option.getD_some]

/-- A quoted argument is read as the argument. -/
theorem splitWords_quoteArg (arg : String) (rest : List Char) :
    splitWords none false ((quoteArg arg).toList ++ rest) =
      splitWords (some arg.toList) false rest := by
  unfold quoteArg
  dsimp only
  split_ifs with hneeds
  · rw [Bool.not_eq_true', Bool.or_eq_false_iff] at hneeds
    obtain ⟨hempty, hany⟩ := hneeds
    have hplain : ∀ c ∈ arg.toList, isPlain c = true := by
      intro c hc
      rw [List.any_eq_false] at hany
      simpa using hany c hc
    obtain ⟨c, cs, hcs⟩ : ∃ c cs, arg.toList = c :: cs := by
      refine List.exists_cons_of_ne_nil fun hnil ↦ ?_
      rw [String.toList_eq_nil_iff.mp hnil] at hempty
      exact absurd hempty (by decide)
    rw [hcs] at hplain ⊢
    have hstart : splitWords none false (c :: cs ++ rest) =
        splitWords (some []) false (c :: cs ++ rest) := by
      obtain ⟨hquote, hblank⟩ := ne_of_isPlain (hplain c List.mem_cons_self)
      simp only [List.cons_append, splitWords_unquoted, if_neg hquote, hblank, Bool.false_eq_true,
        if_false, Option.getD_none, Option.getD_some]
    rw [hstart, splitWords_plain hplain, List.nil_append]
  · rw [replace_replace_replace, String.toList_ofList, List.cons_append, List.cons_append,
      List.append_assoc, List.singleton_append]
    change splitWords (some []) true _ = _
    rw [splitWords_escape, List.nil_append]

/-- The words of a command line are the arguments that it was made of. -/
theorem splitWords_intercalate (arg : String) (args : List String) :
    splitWords none false (" ".intercalate ((arg :: args).map quoteArg)).toList =
      some ((arg :: args).map String.toList) := by
  induction args generalizing arg with
  | nil =>
      have hend := splitWords_quoteArg arg []
      rw [List.append_nil] at hend
      exact hend
  | cons next args ih =>
      have hjoin : (" ".intercalate ((arg :: next :: args).map quoteArg)).toList =
          (quoteArg arg).toList ++ ' ' :: (" ".intercalate ((next :: args).map quoteArg)).toList := by
        rw [List.map_cons, List.map_cons, String.intercalate_cons_cons, String.toList_append,
          String.toList_append, List.append_assoc]
        rfl
      rw [hjoin, splitWords_quoteArg]
      change (splitWords none false _).map _ = _
      rw [ih]
      rfl

end Quoting

/-! ## The lines of a unit -/

def unlines (ls : List (List Char)) : List Char := ls.flatMap (· ++ ['\n'])

theorem splitOn_unlines {ls : List (List Char)} (h : ∀ l ∈ ls, '\n' ∉ l) :
    splitOn '\n' (unlines ls) = ls ++ [[]] := by
  induction ls with
  | nil => rfl
  | cons l ls ih =>
      obtain ⟨hl, hls⟩ := List.forall_mem_cons.mp h
      have hcons : unlines (l :: ls) = l ++ '\n' :: unlines ls := by simp [unlines]
      rw [hcons, splitOn_append, splitOn_of_notMem hl, ih hls, List.cons_append, List.nil_append,
        List.cons_append]

theorem lines_unlines {ls : List (List Char)} (h : ∀ l ∈ ls, '\n' ∉ l) :
    lines (unlines ls) = ls.map stripReturn := by
  unfold lines
  dsimp only
  rw [splitOn_unlines h, List.dropLast_concat, List.getLast?_concat]
  simp

theorem stripPrefix_append (start rest : List Char) :
    stripPrefix start (start ++ rest) = some rest := by
  rw [stripPrefix, if_pos (List.isPrefixOf_iff_prefix.mpr (List.prefix_append start rest)),
    List.drop_left]

theorem stripPrefix_of_ne {c d : Char} {start line : List Char} (h : c ≠ d) :
    stripPrefix (c :: start) (d :: line) = none := by
  rw [stripPrefix, if_neg]
  simp [List.isPrefixOf, h]

def userLines (config : SystemdServiceConfig) : List (List Char) :=
  (config.user.map fun u ↦ "User=".toList ++ u.toList).toList

/-- The lines before the command line. -/
def headLines (config : SystemdServiceConfig) : List (List Char) :=
  ["[Unit]".toList, "Description=".toList ++ config.description.toList,
    "After=network-online.target".toList, "Wants=network-online.target".toList, [],
    "[Service]".toList, "Type=simple".toList]

/-- The lines between the command line and the log file. -/
def middleLines (config : SystemdServiceConfig) : List (List Char) :=
  ("WorkingDirectory=".toList ++ config.workingDir.toList) :: userLines config ++
    ["Restart=on-failure".toList, "RestartSec=5s".toList, "LimitNOFILE=65536".toList]

def lastLines (config : SystemdServiceConfig) : List (List Char) :=
  ["StandardError=append:".toList ++ (logFilePath config).toList, [], "[Install]".toList,
    "WantedBy=multi-user.target".toList]

def unitLines (config : SystemdServiceConfig) : List (List Char) :=
  headLines config ++
    ("ExecStart=".toList ++ (buildExecStart config.binaryPath config.args).toList) ::
    middleLines config ++
    ("StandardOutput=append:".toList ++ (logFilePath config).toList) :: lastLines config

theorem toList_renderUnit (config : SystemdServiceConfig) :
    (renderUnit config).toList = unlines (unitLines config) := by
  have hnewline : "\n".toList = ['\n'] := rfl
  have hempty : "".toList = [] := rfl
  unfold renderUnit unlines unitLines headLines middleLines lastLines userLines
  cases config.user with
  | none =>
      simp only [String.toList_append, hnewline, hempty, Option.map_none, Option.toList_none,
        List.flatMap_cons, List.flatMap_nil, List.append_assoc, List.cons_append, List.nil_append,
        List.append_nil]
  | some u =>
      simp only [String.toList_append, hnewline, Option.map_some, Option.toList_some,
        List.flatMap_cons, List.flatMap_nil, List.append_assoc, List.cons_append, List.nil_append,
        List.append_nil]

/-! ## Reading a unit back -/

/-- None of the strings of a configuration has a line feed. -/
structure SystemdServiceConfig.NoLineBreaks (config : SystemdServiceConfig) : Prop where
  serviceName : '\n' ∉ config.serviceName.toList
  description : '\n' ∉ config.description.toList
  binaryPath : '\n' ∉ config.binaryPath.toList
  args : ∀ arg ∈ config.args, '\n' ∉ arg.toList
  workingDir : '\n' ∉ config.workingDir.toList
  user : ∀ u ∈ config.user, '\n' ∉ u.toList

section ReadingBack

variable {config : SystemdServiceConfig} {arg path child : String} {args : List String}

theorem notMem_join (hpath : '\n' ∉ path.toList) (hchild : '\n' ∉ child.toList) :
    '\n' ∉ (join path child).toList := by
  have hslash : '\n' ∉ "/".toList := by decide
  unfold join
  split_ifs
  · exact hchild
  · simp only [String.toList_append, List.mem_append, not_or]
    exact ⟨⟨hpath, hslash⟩, hchild⟩
  · simp only [String.toList_append, List.mem_append, not_or]
    exact ⟨hpath, hchild⟩

theorem notMem_escape {cs : List Char} (hcs : '\n' ∉ cs) : '\n' ∉ escape cs := by
  intro hmem
  obtain ⟨c, hc, hmem⟩ := List.mem_flatMap.mp hmem
  have hne : '\n' ≠ c := fun h ↦ hcs (h ▸ hc)
  split_ifs at hmem
  · rcases List.mem_cons.mp hmem with hback | hmem
    · exact absurd hback (by decide)
    · exact hne (List.mem_singleton.mp hmem)
  · exact hne (List.mem_singleton.mp hmem)

theorem notMem_quoteArg (harg : '\n' ∉ arg.toList) : '\n' ∉ (quoteArg arg).toList := by
  unfold quoteArg
  dsimp only
  split_ifs
  · exact harg
  · rw [replace_replace_replace, String.toList_ofList]
    have hquote : '\n' ≠ '"' := by decide
    simp [hquote, notMem_escape harg]

theorem notMem_intercalate (h : ∀ s ∈ args, '\n' ∉ s.toList) :
    '\n' ∉ (" ".intercalate args).toList := by
  have hblank : '\n' ∉ " ".toList := by decide
  induction args with
  | nil => decide
  | cons arg args ih =>
      obtain ⟨harg, hargs⟩ := List.forall_mem_cons.mp h
      cases args with
      | nil => exact harg
      | cons next args =>
          rw [String.intercalate_cons_cons, String.toList_append, String.toList_append]
          simp only [List.mem_append, not_or]
          exact ⟨⟨harg, hblank⟩, ih hargs⟩

theorem SystemdServiceConfig.NoLineBreaks.notMem_buildExecStart (h : config.NoLineBreaks) :
    '\n' ∉ (buildExecStart config.binaryPath config.args).toList := by
  refine notMem_intercalate fun s hs ↦ ?_
  rcases List.mem_cons.mp hs with rfl | hs
  · exact notMem_quoteArg h.binaryPath
  · obtain ⟨arg, harg, rfl⟩ := List.mem_map.mp hs
    exact notMem_quoteArg (h.args arg harg)

theorem SystemdServiceConfig.NoLineBreaks.notMem_logFilePath (h : config.NoLineBreaks) :
    '\n' ∉ (logFilePath config).toList := by
  refine notMem_join (notMem_join h.workingDir (by decide)) ?_
  simp [h.serviceName]

theorem SystemdServiceConfig.NoLineBreaks.notMem_unitLines (h : config.NoLineBreaks) :
    ∀ l ∈ unitLines config, '\n' ∉ l := by
  have hexec := h.notMem_buildExecStart
  have hlog := h.notMem_logFilePath
  have hdescription := h.description
  have hdir := h.workingDir
  have huser : ∀ l ∈ userLines config, '\n' ∉ l := by
    intro l hl
    obtain ⟨u, hu, rfl⟩ := Option.map_eq_some_iff.mp (Option.mem_toList.mp hl)
    simp [h.user u hu]
  unfold unitLines headLines middleLines lastLines
  simp only [List.forall_mem_append, List.forall_mem_cons]
  simp only [List.mem_append, hdescription, hexec, hdir, hlog, or_false]
  simpa using huser

/-- A line that starts with another character, or is empty. -/
def StartsOtherwise (c : Char) (line : List Char) : Prop :=
  line.head?.all (fun d ↦ d ≠ c ∧ isWhitespace d = false) = true

theorem StartsOtherwise.stripPrefix {c : Char} {start line : List Char}
    (h : StartsOtherwise c line) : stripPrefix (c :: start) line = none := by
  cases line with
  | nil => rfl
  | cons d line => exact stripPrefix_of_ne (of_decide_eq_true h).1.symm

theorem exists_trimChars_cons {d : Char} (hd : isWhitespace d = false) (line : List Char) :
    ∃ rest, trimChars (d :: line) = d :: rest := by
  have hdrop : (d :: line).dropWhile isWhitespace = d :: line :=
    List.dropWhile_cons_of_neg (by rw [hd]; exact Bool.false_ne_true)
  have hprefix : trimChars (d :: line) <+: d :: line := by
    unfold trimChars
    rw [hdrop]
    exact List.rdropWhile_prefix isWhitespace (d :: line)
  have hne : trimChars (d :: line) ≠ [] := by
    intro hnil
    unfold trimChars at hnil
    rw [hdrop] at hnil
    have hall := List.rdropWhile_eq_nil_iff.mp hnil d List.mem_cons_self
    rw [hd] at hall
    exact Bool.false_ne_true hall
  obtain ⟨c, rest, hcons⟩ := List.exists_cons_of_ne_nil hne
  rw [hcons, List.cons_prefix_cons] at hprefix
  exact ⟨rest, hprefix.1 ▸ hcons⟩

/-- Lines are read without the blanks around them. -/
theorem StartsOtherwise.trim {c : Char} {line : List Char} (h : StartsOtherwise c line) :
    StartsOtherwise c (trimChars (stripReturn line)) := by
  cases line with
  | nil => rfl
  | cons d line =>
      obtain ⟨hne, hd⟩ := of_decide_eq_true h
      obtain ⟨line', hline'⟩ : ∃ line', stripReturn (d :: line) = d :: line' := by
        unfold stripReturn
        split_ifs with hlast
        · cases line with
          | nil =>
              rw [List.getLast?_singleton, Option.some.injEq] at hlast
              rw [hlast] at hd
              exact absurd hd (by decide)
          | cons e line => exact ⟨_, rfl⟩
        · exact ⟨line, rfl⟩
      obtain ⟨rest, hrest⟩ := exists_trimChars_cons hd line'
      rw [hline', hrest]
      exact decide_eq_true ⟨hne, hd⟩

/-- The first line that has the prefix is the one that is taken. -/
theorem findSome?_stripPrefix {start rest : List Char} {before after : List (List Char)}
    (h : ∀ l ∈ before, stripPrefix start l = none) :
    (before ++ (start ++ rest) :: after).findSome? (stripPrefix start) = some rest := by
  rw [List.findSome?_append, List.findSome?_eq_none_iff.mpr h, Option.none_or,
    List.findSome?_cons_of_isSome]
  · exact stripPrefix_append start rest
  · rw [stripPrefix_append]
    rfl

theorem execStart_renderUnit (h : config.NoLineBreaks) :
    execStart (renderUnit config) =
      some (buildExecStart config.binaryPath config.args).toList := by
  have hhead : ∀ l ∈ headLines config, StartsOtherwise 'E' l := by
    unfold headLines
    simp only [List.forall_mem_cons]
    exact ⟨rfl, rfl, rfl, rfl, rfl, rfl, rfl, List.forall_mem_nil _⟩
  unfold execStart
  rw [toList_renderUnit, splitOn_unlines h.notMem_unitLines, unitLines]
  simp only [List.append_assoc, List.cons_append]
  exact findSome?_stripPrefix fun l hl ↦ (hhead l hl).stripPrefix

theorem getLast?_logFilePath (config : SystemdServiceConfig) :
    (logFilePath config).toList.getLast? = some 'g' := by
  have hlog : (config.serviceName ++ ".log").toList.getLast? = some 'g' := by
    rw [String.toList_append, List.getLast?_append]
    rfl
  unfold logFilePath join
  split_ifs <;> first | exact hlog | rw [String.toList_append, List.getLast?_append, hlog]; rfl

theorem parseUnitLogPath_renderUnit (h : config.NoLineBreaks) :
    parseUnitLogPath (renderUnit config) = some (logFilePath config) := by
  have hbefore : ∀ l ∈ headLines config ++
      ("ExecStart=".toList ++ (buildExecStart config.binaryPath config.args).toList) ::
      middleLines config, StartsOtherwise 'S' l := by
    unfold headLines middleLines userLines
    simp only [List.forall_mem_append, List.forall_mem_cons]
    refine ⟨⟨rfl, rfl, rfl, rfl, rfl, rfl, rfl, List.forall_mem_nil _⟩, rfl, ⟨rfl, ?_⟩,
      rfl, rfl, rfl, List.forall_mem_nil _⟩
    intro l hl
    obtain ⟨u, -, rfl⟩ := Option.map_eq_some_iff.mp (Option.mem_toList.mp hl)
    rfl
  have hlog : trimChars (stripReturn
      ("StandardOutput=append:".toList ++ (logFilePath config).toList)) =
      "StandardOutput=append:".toList ++ (logFilePath config).toList := by
    have hlast : ("StandardOutput=append:".toList ++ (logFilePath config).toList).getLast? =
        some 'g' := by
      rw [List.getLast?_append, getLast?_logFilePath]
      rfl
    rw [stripReturn, if_neg (by rw [hlast]; decide)]
    exact trimChars_eq_self rfl (by rw [hlast]; decide)
  unfold parseUnitLogPath
  rw [toList_renderUnit, lines_unlines h.notMem_unitLines, unitLines, List.map_map, List.map_append,
    List.map_cons, Function.comp_apply, hlog, findSome?_stripPrefix, Option.map_some,
    String.ofList_toList]
  intro l hl
  obtain ⟨line, hline, rfl⟩ := List.mem_map.mp hl
  exact (hbefore line hline).trim.stripPrefix

/-- What a unit says of the command and of the log file is what it was made from. -/
theorem renderUnit_readBack (config : SystemdServiceConfig) (h : config.NoLineBreaks) :
    commandLine (renderUnit config) = some (config.binaryPath :: config.args) ∧
      parseUnitLogPath (renderUnit config) = some (logFilePath config) := by
  refine ⟨?_, parseUnitLogPath_renderUnit h⟩
  unfold commandLine
  rw [execStart_renderUnit h, Option.bind_some]
  have hwords : splitWords none false (buildExecStart config.binaryPath config.args).toList =
      some ((config.binaryPath :: config.args).map String.toList) :=
    splitWords_intercalate config.binaryPath config.args
  rw [hwords, Option.map_some, List.map_map]
  have hid : String.ofList ∘ String.toList = id := funext fun _ ↦ String.ofList_toList
  rw [hid, List.map_id]

end ReadingBack

/-- A unit whose arguments need each of the escapes, and whose description names a log file. -/
def sample : SystemdServiceConfig where
  serviceName := "oxiproxy-node"
  description := "StandardOutput=append:/tmp/x.log"
  binaryPath := "/opt/oxi proxy/node"
  args := ["run", "", "a b", "c:\\d\\", "\"$HOME\""]
  workingDir := "/var/lib/oxiproxy/"
  user := some "node"

theorem renderUnit_readBack_sample :
    commandLine (renderUnit sample) =
        some ["/opt/oxi proxy/node", "run", "", "a b", "c:\\d\\", "\"$HOME\""] ∧
      parseUnitLogPath (renderUnit sample) = some "/var/lib/oxiproxy/log/oxiproxy-node.log" := by
  have hlines : sample.NoLineBreaks := by constructor <;> decide
  have hlog : logFilePath sample = "/var/lib/oxiproxy/log/oxiproxy-node.log" := by decide
  rw [← hlog]
  exact renderUnit_readBack sample hlines

end Oxiproxy.Systemd
