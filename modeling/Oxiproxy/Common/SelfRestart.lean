import Mathlib

/-!
# Restarting after an update

A client or node that has replaced its binary starts itself again.  It builds the
new command line from its own: the daemon has already forked, so the command
becomes `start`, and the options of the PID file are left out.  What the two
commands do with their options is compared before and after.
-/

namespace Oxiproxy.SelfRestart

/-! ## The new command line -/

/-- One argument with its position, from the arguments kept so far and whether
this one is the value of an option that is left out. -/
def restartArg (acc : List String × Bool) (entry : String × ℕ) : List String × Bool :=
  if acc.2 then (acc.1, false)
  else if entry.2 = 1 ∧ entry.1 = "daemon" then (acc.1 ++ ["start"], false)
  else if entry.1 = "--pid-file" then (acc.1, true)
  else if "--pid-file=".toList.isPrefixOf entry.1.toList then (acc.1, false)
  else (acc.1 ++ [entry.1], false)

/-- The arguments of `restart_self`, from all the arguments of the process. -/
def restartArgs (originalArgs : List String) : List String :=
  ((originalArgs.zipIdx.drop 1).foldl restartArg ([], false)).1

/-! ## Command lines -/

/-- A value in an argument of its own is not taken for an option. -/
def Separate (value : String) : Prop := value = "-" ∨ value.toList.head? ≠ some '-'

/-- The arguments after the command spell options with values, each either as
`--name value` or as `--name=value`.  This and `Accepted` stand for the parser of
the command line, clap, as far as options with values go. -/
inductive Spelled : List String → List (String × String) → Prop
  | nil : Spelled [] []
  | separate {name value : String} {args : List String} {opts : List (String × String)}
      (hname : '=' ∉ name.toList) (hvalue : Separate value) (hrest : Spelled args opts) :
      Spelled (("--" ++ name) :: value :: args) ((name, value) :: opts)
  | joined {name value : String} {args : List String} {opts : List (String × String)}
      (hname : '=' ∉ name.toList) (hrest : Spelled args opts) :
      Spelled (("--" ++ name ++ "=" ++ value) :: args) ((name, value) :: opts)

/-- Every option is one of the flags, and none is given twice. -/
def Accepted (flags : List String) (opts : List (String × String)) : Prop :=
  (opts.map Prod.fst).Nodup ∧ ∀ opt ∈ opts, opt.1 ∈ flags

instance (flags : List String) (opts : List (String × String)) : Decidable (Accepted flags opts) :=
  inferInstanceAs (Decidable ((opts.map Prod.fst).Nodup ∧ ∀ opt ∈ opts, opt.1 ∈ flags))

/-- What a command ends up doing. -/
inductive Outcome (σ : Type)
  | refused
  | systemctlStart (service : String)
  | runs (settings : σ) (logDir : Option String)
  deriving DecidableEq

/-- A program with a `daemon` and a `start` command: the flags both have besides
that of the log directory, and the settings read from them. -/
structure Program (σ : Type) where
  /-- The service that `start` looks for unless another is named. -/
  service : String
  flags : List String
  settings : (String → Option String) → Option σ
  settings_congr : ∀ v w, (∀ flag ∈ flags, v flag = w flag) → settings v = settings w
  pidFile_notMem : "pid-file" ∉ flags
  serviceName_notMem : "service-name" ∉ flags

namespace Program

variable {σ : Type} (P : Program σ)

def daemon (opts : List (String × String)) : Outcome σ :=
  if Accepted (P.flags ++ ["pid-file", "log-dir"]) opts then
    match P.settings (opts.lookup ·) with
    | some settings => .runs settings (some ((opts.lookup "log-dir").getD "./logs"))
    | none => .refused
  else .refused

def start (isInstalled : String → Bool) (opts : List (String × String)) : Outcome σ :=
  if Accepted (P.flags ++ ["log-dir", "service-name"]) opts then
    let service := (opts.lookup "service-name").getD P.service
    if isInstalled service then .systemctlStart service
    else
      match P.settings (opts.lookup ·) with
      | some settings => .runs settings (opts.lookup "log-dir")
      | none => .refused
  else .refused

end Program

structure ClientSettings where
  controllerUrl : String
  token : String
  tlsCaCert : Option String
  deriving DecidableEq

def client : Program ClientSettings where
  service := "oxiproxy-client"
  flags := ["controller-url", "token", "tls-ca-cert"]
  settings v := do
    let controllerUrl ← v "controller-url"
    let token ← v "token"
    return ⟨controllerUrl, token, v "tls-ca-cert"⟩
  settings_congr v w h := by simp only [List.mem_cons, forall_eq_or_imp] at h; simp [h]
  pidFile_notMem := by decide
  serviceName_notMem := by decide

structure NodeSettings where
  controllerUrl : String
  token : String
  protocol : String
  tlsCaCert : Option String
  deriving DecidableEq

def node : Program NodeSettings where
  service := "oxiproxy-node"
  flags := ["controller-url", "token", "protocol", "tls-ca-cert"]
  settings v := do
    let controllerUrl ← v "controller-url"
    let token ← v "token"
    return ⟨controllerUrl, token, (v "protocol").getD "quic", v "tls-ca-cert"⟩
  settings_congr v w h := by simp only [List.mem_cons, forall_eq_or_imp] at h; simp [h]
  pidFile_notMem := by decide
  serviceName_notMem := by decide

/-! ## What the loop keeps -/

section Loop

variable {acc : List String} {arg name value : String} {k : ℕ}

theorem restartArg_keep (hk : k ≠ 1) (hne : arg ≠ "--pid-file")
    (hspelling : ¬ "--pid-file=".toList <+: arg.toList) :
    restartArg (acc, false) (arg, k) = (acc ++ [arg], false) := by
  simp only [restartArg, Bool.false_eq_true, hk, hne, false_and, if_false,
    List.isPrefixOf_iff_prefix, hspelling]

/-- An option is told by the part before the first equals sign. -/
theorem takeWhile_append_eq {name rest : List Char} (hname : '=' ∉ name) :
    (name ++ '=' :: rest).takeWhile (· ≠ '=') = name := by
  rw [List.takeWhile_append_of_pos]
  · simp
  · intro c hc
    exact decide_eq_true fun heq ↦ hname (heq ▸ hc)

theorem not_prefix_separate (hname : '=' ∉ name.toList) :
    ¬ "--pid-file=".toList <+: ("--" ++ name).toList := by
  intro hspelling
  rw [String.toList_append] at hspelling
  obtain ⟨rest, hrest⟩ := hspelling
  have hname' : name.toList = "pid-file=".toList ++ rest := by simpa using hrest.symm
  exact hname (hname' ▸ by simp)

theorem eq_of_prefix_joined (hname : '=' ∉ name.toList)
    (hspelling : "--pid-file=".toList <+: ("--" ++ name ++ "=" ++ value).toList) :
    name = "pid-file" := by
  obtain ⟨rest, hrest⟩ := hspelling
  have hsplit : name.toList ++ '=' :: value.toList = "pid-file".toList ++ '=' :: rest := by
    simpa using hrest.symm
  have hhead := congrArg (List.takeWhile (· ≠ '=')) hsplit
  rw [takeWhile_append_eq hname, takeWhile_append_eq (by decide)] at hhead
  exact String.toList_injective hhead

/-- After the command, the options of the PID file are left out and all others
are kept as they are spelled. -/
theorem foldl_restartArg {args : List String} {opts : List (String × String)}
    (hspelled : Spelled args opts) (hk : 2 ≤ k) (acc : List String) :
    ∃ rest, Spelled rest (opts.filter (·.1 ≠ "pid-file")) ∧
      ((∀ opt ∈ opts, opt.1 ≠ "pid-file") → rest = args) ∧
      (args.zipIdx k).foldl restartArg (acc, false) = (acc ++ rest, false) := by
  induction hspelled generalizing k acc with
  | nil => exact ⟨[], .nil, fun _ ↦ rfl, by simp⟩
  | @separate name value args opts hname hvalue hrest ih =>
      rw [List.zipIdx_cons, List.zipIdx_cons, List.foldl_cons, List.foldl_cons]
      by_cases hpid : name = "pid-file"
      · subst hpid
        have htwo : restartArg (restartArg (acc, false) ("--" ++ "pid-file", k)) (value, k + 1) =
            (acc, false) := by
          simp [restartArg]
        obtain ⟨rest, hspelled, -, hfold⟩ := ih (by omega : 2 ≤ k + 1 + 1) acc
        rw [htwo]
        exact ⟨rest, by simpa using hspelled, by simp, hfold⟩
      · have hflag : "--" ++ name ≠ "--pid-file" := by
          intro heq
          refine hpid (String.toList_injective ?_)
          simpa using congrArg String.toList heq
        have hvalue' : value ≠ "--pid-file" ∧ ¬ "--pid-file=".toList <+: value.toList := by
          rcases hvalue with rfl | hhead
          · decide
          · refine ⟨?_, ?_⟩
            · rintro rfl
              exact hhead rfl
            · rintro ⟨rest, hrest⟩
              rw [← hrest] at hhead
              exact hhead rfl
        rw [restartArg_keep (by omega) hflag (not_prefix_separate hname),
          restartArg_keep (by omega) hvalue'.1 hvalue'.2]
        obtain ⟨rest, hspelled, hsame, hfold⟩ :=
          ih (by omega : 2 ≤ k + 1 + 1) (acc ++ ["--" ++ name] ++ [value])
        refine ⟨("--" ++ name) :: value :: rest, ?_, ?_, ?_⟩
        · simpa [hpid] using Spelled.separate hname hvalue hspelled
        · intro hnone
          rw [hsame fun opt hopt ↦ hnone opt (List.mem_cons_of_mem _ hopt)]
        · rw [hfold]
          simp
  | @joined name value args opts hname hrest ih =>
      rw [List.zipIdx_cons, List.foldl_cons]
      have hflag : "--" ++ name ++ "=" ++ value ≠ "--pid-file" := by
        intro heq
        have hmem : '=' ∈ ("--" ++ name ++ "=" ++ value).toList := by simp
        rw [heq] at hmem
        exact absurd hmem (by decide)
      by_cases hpid : name = "pid-file"
      · subst hpid
        have hspelling : "--pid-file=".toList <+: ("--" ++ "pid-file" ++ "=" ++ value).toList :=
          ⟨value.toList, by simp⟩
        have hone : restartArg (acc, false) ("--" ++ "pid-file" ++ "=" ++ value, k) =
            (acc, false) := by
          have hk' : k ≠ 1 := by omega
          simp only [restartArg, Bool.false_eq_true, hk', hflag, false_and, if_false,
            List.isPrefixOf_iff_prefix, hspelling, if_true]
        obtain ⟨rest, hspelled, -, hfold⟩ := ih (by omega : 2 ≤ k + 1) acc
        rw [hone]
        exact ⟨rest, by simpa using hspelled, by simp, hfold⟩
      · rw [restartArg_keep (by omega) hflag fun hspelling ↦ hpid (eq_of_prefix_joined hname hspelling)]
        obtain ⟨rest, hspelled, hsame, hfold⟩ :=
          ih (by omega : 2 ≤ k + 1) (acc ++ ["--" ++ name ++ "=" ++ value])
        refine ⟨("--" ++ name ++ "=" ++ value) :: rest, ?_, ?_, ?_⟩
        · simpa [hpid] using Spelled.joined hname hspelled
        · intro hnone
          rw [hsame fun opt hopt ↦ hnone opt (List.mem_cons_of_mem _ hopt)]
        · rw [hfold]
          simp

/-- The command line of a daemon. -/
theorem restartArgs_daemon {args : List String} {opts : List (String × String)} (exe : String)
    (hspelled : Spelled args opts) :
    ∃ rest, Spelled rest (opts.filter (·.1 ≠ "pid-file")) ∧
      restartArgs (exe :: "daemon" :: args) = "start" :: rest := by
  obtain ⟨rest, hrest, -, hfold⟩ := foldl_restartArg hspelled (le_refl 2) ["start"]
  refine ⟨rest, hrest, ?_⟩
  have hcommand : restartArg ([], false) ("daemon", 1) = (["start"], false) := by
    simp [restartArg]
  simp only [restartArgs, List.zipIdx_cons, Nat.zero_add, List.drop_succ_cons, List.drop_zero,
    List.foldl_cons, hcommand]
  rw [hfold]
  rfl

/-- A program that was not started as a daemon is started the same way. -/
theorem restartArgs_foreground {args : List String} {opts : List (String × String)}
    (exe command : String) (hcommand : command = "start" ∨ command = "run")
    (hspelled : Spelled args opts) (hnone : ∀ opt ∈ opts, opt.1 ≠ "pid-file") :
    restartArgs (exe :: command :: args) = command :: args := by
  obtain ⟨rest, -, hsame, hfold⟩ := foldl_restartArg hspelled (le_refl 2) [command]
  have hkeep : restartArg ([], false) (command, 1) = ([command], false) := by
    rcases hcommand with rfl | rfl <;> decide
  simp only [restartArgs, List.zipIdx_cons, Nat.zero_add, List.drop_succ_cons, List.drop_zero,
    List.foldl_cons, hkeep]
  rw [hfold, hsame hnone]
  rfl

end Loop

/-! ## What the restarted program does -/

section Outcome

variable {σ : Type} (P : Program σ) {opts : List (String × String)} {settings : σ}
  {logDir : Option String}

theorem lookup_filter_ne {name other : String} (hne : name ≠ other)
    (opts : List (String × String)) :
    (opts.filter (·.1 ≠ other)).lookup name = opts.lookup name := by
  induction opts with
  | nil => rfl
  | cons opt opts ih =>
      obtain ⟨k, v⟩ := opt
      by_cases hk : k = other
      · subst hk
        rw [List.filter_cons_of_neg (by simp), ih, List.lookup_cons, beq_false_of_ne hne]
      · rw [List.filter_cons_of_pos (by simpa using hk), List.lookup_cons, List.lookup_cons, ih]

/-- What the command reads besides the PID file is there for both commands. -/
theorem Program.start_of_daemon (hdaemon : P.daemon opts = .runs settings logDir)
    (isInstalled : String → Bool) :
    P.start isInstalled (opts.filter (·.1 ≠ "pid-file")) =
      if isInstalled P.service then .systemctlStart P.service
      else .runs settings (opts.lookup "log-dir") := by
  unfold Program.daemon at hdaemon
  split_ifs at hdaemon with haccepted
  have haccepted' : Accepted (P.flags ++ ["log-dir", "service-name"])
      (opts.filter (·.1 ≠ "pid-file")) := by
    refine ⟨haccepted.1.sublist (List.filter_sublist.map Prod.fst), fun opt hopt ↦ ?_⟩
    obtain ⟨hopt, hne⟩ := List.mem_filter.mp hopt
    have hflag := haccepted.2 opt hopt
    simp only [List.mem_append, List.mem_cons, List.not_mem_nil, or_false] at hflag ⊢
    rcases hflag with hflag | hflag | hflag
    · exact .inl hflag
    · exact (of_decide_eq_true hne hflag).elim
    · exact .inr (.inl hflag)
  -- `daemon` takes no service name, so `start` looks for the default service.
  have hservice : (opts.filter (·.1 ≠ "pid-file")).lookup "service-name" = none := by
    rw [lookup_filter_ne (by decide), List.lookup_eq_none_iff]
    intro opt hopt
    rw [bne_iff_ne]
    rintro hname
    have hflag := haccepted.2 opt hopt
    rw [← hname] at hflag
    simp only [List.mem_append, P.serviceName_notMem, false_or] at hflag
    exact absurd hflag (by decide)
  have hsettings : P.settings ((opts.filter (·.1 ≠ "pid-file")).lookup ·) =
      P.settings (opts.lookup ·) := by
    refine P.settings_congr _ _ fun flag hflag ↦ lookup_filter_ne ?_ opts
    rintro rfl
    exact P.pidFile_notMem hflag
  rw [Program.start, if_pos haccepted', hservice, hsettings, lookup_filter_ne (by decide)]
  split at hdaemon
  · rename_i settings' hread
    cases hdaemon
    rfl
  · cases hdaemon

/-- The restarted daemon gets its options without the PID file.  It runs with its
settings unless the default service is installed, and it logs to the directory that
was named, or else to the console: it does the same as before exactly when there is
no such service and the log directory was given. -/
theorem restarted_daemon {args : List String} (exe : String) (hspelled : Spelled args opts)
    (hdaemon : P.daemon opts = .runs settings logDir) (isInstalled : String → Bool) :
    ∃ rest opts', restartArgs (exe :: "daemon" :: args) = "start" :: rest ∧ Spelled rest opts' ∧
      opts' = opts.filter (·.1 ≠ "pid-file") ∧
      P.start isInstalled opts' =
        (if isInstalled P.service then .systemctlStart P.service
          else .runs settings (opts.lookup "log-dir")) ∧
      (P.start isInstalled opts' = P.daemon opts ↔
        isInstalled P.service = false ∧ (opts.lookup "log-dir").isSome = true) := by
  obtain ⟨rest, hrest, hargs⟩ := restartArgs_daemon exe hspelled
  have hstart := P.start_of_daemon hdaemon isInstalled
  have hlogDir : logDir = some ((opts.lookup "log-dir").getD "./logs") := by
    unfold Program.daemon at hdaemon
    split_ifs at hdaemon
    split at hdaemon <;> cases hdaemon
    rfl
  refine ⟨rest, _, hargs, hrest, rfl, hstart, ?_⟩
  rw [hstart, hdaemon, hlogDir]
  cases hinstalled : isInstalled P.service with
  | true => simp
  | false => cases hgiven : opts.lookup "log-dir" <;> simp

end Outcome

theorem spelled_node :
    Spelled ["--" ++ "controller-url", "http://c:3100", "--" ++ "token" ++ "=" ++ "t",
        "--" ++ "pid-file", "/run/n.pid"]
      [("controller-url", "http://c:3100"), ("token", "t"), ("pid-file", "/run/n.pid")] := by
  refine .separate (by decide) (.inr (by decide)) ?_
  refine .joined (by decide) ?_
  exact .separate (by decide) (.inr (by decide)) .nil

theorem restarted_daemon_node :
    ∃ rest opts', restartArgs ("/usr/bin/node" :: "daemon" ::
          ["--" ++ "controller-url", "http://c:3100", "--" ++ "token" ++ "=" ++ "t",
            "--" ++ "pid-file", "/run/n.pid"]) = "start" :: rest ∧ Spelled rest opts' ∧
      opts' = [("controller-url", "http://c:3100"), ("token", "t")] ∧
      node.start (fun _ ↦ false) opts' = .runs ⟨"http://c:3100", "t", "quic", none⟩ none ∧
      (node.start (fun _ ↦ false) opts' = node.daemon [("controller-url", "http://c:3100"),
          ("token", "t"), ("pid-file", "/run/n.pid")] ↔
        false = false ∧ (none : Option String).isSome = true) :=
  restarted_daemon node "/usr/bin/node" spelled_node
    (by decide : node.daemon _ = .runs ⟨"http://c:3100", "t", "quic", none⟩ (some "./logs"))
    fun _ ↦ false

end Oxiproxy.SelfRestart
