import Oxiproxy.Controller.CertificateManager

/-!
# The certificate that a client expects

A node process uses the certificate of its first registration until it exits; one
that comes with a later registration is only reported, and nothing sends the
command that would replace it.  Clients are told the fingerprint in the
controller's table.
-/

namespace Oxiproxy.Client

open Transition Tunnel Controller

variable {D K : Type}

inductive AgentStage (D K : Type)
  | starting
  /-- The tunnel server has a certificate, from the controller or made for the time being. -/
  | running (cert : D) (key : K) (issued : Bool)
  | exited

/-- A node process. -/
structure Agent (D K : Type) where
  nodeId : ℤ
  /-- The call for the certificate on the stream that the process has opened, until
  its answer is read. -/
  registration : Option ℕ
  stage : AgentStage D K

structure Deployment (D K : Type) where
  manager : CertificateManager
  agents : List (Agent D K)

inductive DeploymentInput (D K : Type)
  | createNode
  | deleteNode (nodeId : ℤ)
  /-- A process is started with the token of a node. -/
  | launch (nodeId : ℤ)
  /-- A process opens a stream, and the controller takes its token. -/
  | connect (agent : ℕ) (nodeName : String)
  | next (call : ℕ) (env : CertificateEnv)
  /-- The process reads the answer to its registration; `temporary` is what rcgen
  makes without one. -/
  | register (agent : ℕ) (temporary : Option (D × K))
  | exit (agent : ℕ)

/-- `ProxyServer::new` with the certificate of the answer; the process exits on an error. -/
def startProxyServer (tools : CertTools D K) (answer : Option NodeCertificateData)
    (temporary : Option (D × K)) : AgentStage D K :=
  match answer with
  | some d =>
      match tools.firstCert d.certPem, tools.privateKey d.keyPem with
      | some cert, some key => .running cert key true
      | _, _ => .exited
  | none =>
      match temporary with
      | some (cert, key) => .running cert key false
      | none => .exited

/-- The answer to the first registration starts the tunnel server. -/
def Agent.registered (tools : CertTools D K) (a : Agent D K) (answer : Option NodeCertificateData)
    (temporary : Option (D × K)) : Agent D K :=
  match a.stage with
  | .starting => { a with registration := none, stage := startProxyServer tools answer temporary }
  | _ => { a with registration := none }

namespace Deployment

def start : Deployment D K := ⟨.start, []⟩

def setAgent (s : Deployment D K) (i : ℕ) (a : Agent D K) : Deployment D K :=
  { s with agents := s.agents.set i a }

def step (tools : CertTools D K) (s : Deployment D K) :
    DeploymentInput D K → Option (Deployment D K)
  | .createNode => do some { s with manager := ← s.manager.step tools .createNode }
  | .deleteNode nodeId => do some { s with manager := ← s.manager.step tools (.deleteNode nodeId) }
  | .launch nodeId => some { s with agents := s.agents ++ [⟨nodeId, none, .starting⟩] }
  | .connect i nodeName => do
      let a ← s.agents[i]?
      match a.stage with
      | .exited => none
      | _ =>
          if a.nodeId ∈ s.manager.db.nodes then
            let manager ← s.manager.step tools (.getOrGenerate a.nodeId nodeName)
            some { s.setAgent i { a with registration := some s.manager.calls.length } with manager }
          else none
  | .next k env => do some { s with manager := ← s.manager.step tools (.next k env) }
  | .register i temporary => do
      let a ← s.agents[i]?
      let call ← s.manager.calls[← a.registration]?
      match call.stage with
      | .returned _ answer => some (s.setAgent i (a.registered tools answer temporary))
      | _ => none
  | .exit i => do
      let a ← s.agents[i]?
      some (s.setAgent i { a with registration := none, stage := .exited })

/-! ## Runs in which certificates stay -/

/-- The call is making a certificate. -/
def Making (call : CertificateCall) : Prop :=
  call.stage = .generate ∨ (∃ c, call.stage = .find c) ∨ ∃ c now id, call.stage = .save c now id

/-- A call for the node is making a certificate. -/
def MakesFor (s : Deployment D K) (nodeId : ℤ) : Prop :=
  ∃ call ∈ s.manager.calls, call.nodeId = nodeId ∧ Making call

/-- The process has the certificate of an answer, or is about to read it. -/
def Uses (calls : List CertificateCall) (a : Agent D K) (fingerprint : D → String)
    (fp : String) : Prop :=
  (∃ cert key, a.stage = .running cert key true ∧ fingerprint cert = fp) ∨
    a.stage = .starting ∧ ∃ j call now d, a.registration = some j ∧ calls[j]? = some call ∧
      call.stage = .returned now (some d) ∧ d.fingerprint = fp

/-- A process of the node has a certificate from the controller. -/
def UsedBy (tools : CertTools D K) (s : Deployment D K) (nodeId : ℤ) : Prop :=
  ∃ a ∈ s.agents, a.nodeId = nodeId ∧ ∃ fp, Uses s.manager.calls a tools.fingerprint fp

/-- The row of the node lasts for more than thirty days. -/
def Lasts (s : Deployment D K) (nodeId : ℤ) (now : Timestamp) : Prop :=
  ∃ r, s.manager.db.findByNode nodeId = some r ∧ now < r.expiresAt - days 30

/-- The registration of a node is not checked while another one makes a certificate
for the node, and none is due for renewal while a process of the node has one. -/
def Apart (tools : CertTools D K) (s : Deployment D K) : DeploymentInput D K → Prop
  | .next k env => ∀ call, s.manager.calls[k]? = some call → call.stage = .check →
      ¬ s.MakesFor call.nodeId ∧ (s.Lasts call.nodeId env.now ∨ ¬ s.UsedBy tools call.nodeId)
  | _ => True

/-! ## A step of a call, seen from outside -/

section Calls

open CertificateManager

variable {tools : CertTools D K} {db db' : CertificateDb} {call : CertificateCall}
  {env : CertificateEnv} {stage : CertificateStage} {c : GeneratedCertificate} {now : Timestamp}
  {nodeId : ℤ}

/-- A save gives its node the new fingerprint and leaves the other nodes alone. -/
structure Saves (db db' : CertificateDb) (nodeId : ℤ) (fp : String) : Prop where
  nodes : db'.nodes = db.nodes
  nextNode : db'.nextNode = db.nextNode
  saved : db'.getNodeFingerprint nodeId = some fp
  kept : ∀ m fp', m ≠ nodeId → db.getNodeFingerprint m = some fp' → db'.getNodeFingerprint m = some fp'

theorem saves_update {id : ℤ}
    (howner : ∀ r ∈ db.certificates.rows, r.id = id → r.nodeId = nodeId)
    (h : db.update id c now = some db') : Saves db db' nodeId c.fingerprint := by
  unfold CertificateDb.update at h
  split_ifs at h with hsome
  obtain rfl := Option.some.inj h
  obtain ⟨old, hold⟩ := Option.isSome_iff_exists.mp hsome
  obtain ⟨hmem, hid⟩ := Table.find_eq_some.mp hold
  refine ⟨rfl, rfl, ?_, fun m fp' hne hfp ↦ ?_⟩
  · refine CertificateDb.getNodeFingerprint_eq_some.mpr ⟨old.set c now, ?_, howner old hmem hid, rfl⟩
    exact List.mem_map.mpr ⟨old, hmem, if_pos hid⟩
  · obtain ⟨r, hr, hnode, hfp⟩ := CertificateDb.getNodeFingerprint_eq_some.mp hfp
    refine CertificateDb.getNodeFingerprint_eq_some.mpr ⟨r, List.mem_map.mpr ⟨r, hr, if_neg ?_⟩, hnode, hfp⟩
    exact fun hr_id ↦ hne (hnode.symm.trans (howner r hr hr_id))

theorem saves_insert (h : db.insert nodeId c now = some db') :
    Saves db db' nodeId c.fingerprint := by
  unfold CertificateDb.insert at h
  split_ifs at h
  obtain rfl := Option.some.inj h
  refine ⟨rfl, rfl, ?_, fun m fp' _ hfp ↦ ?_⟩
  · have hmem := List.mem_append_right db.certificates.rows
      (List.mem_singleton_self (db.newRow nodeId c now))
    exact CertificateDb.getNodeFingerprint_eq_some.mpr ⟨_, hmem, rfl, rfl⟩
  · obtain ⟨r, hr, hnode, hfp⟩ := CertificateDb.getNodeFingerprint_eq_some.mp hfp
    exact CertificateDb.getNodeFingerprint_eq_some.mpr ⟨r, List.mem_append_left _ hr, hnode, hfp⟩

/-- What one step of a call can do. -/
theorem next_cases (hrows : ∀ r ∈ db.certificates.rows, GenuineRow tools (fun _ _ ↦ True) r)
    (hcall : Kept tools (fun _ _ ↦ True) db call)
    (h : call.next tools db env = some (db', stage)) :
    (db' = db ∧ ∃ now, stage = .returned now none) ∨
    (call.stage = .check ∧ db' = db ∧ ∃ d, stage = .returned env.now (some d) ∧
      db.getNodeFingerprint call.nodeId = some d.fingerprint) ∨
    (call.stage = .check ∧ db' = db ∧ stage = .generate ∧
      ¬ ∃ r, db.findByNode call.nodeId = some r ∧ env.now < r.expiresAt - days 30) ∨
    (Making call ∧ db' = db ∧ Making { call with stage }) ∨
    (Making call ∧ ∃ now d, stage = .returned now (some d) ∧
      Saves db db' call.nodeId d.fingerprint) := by
  unfold CertificateCall.next at h
  cases hstage : call.stage with
  | check =>
      simp only [hstage] at h
      split_ifs at h with hok
      · cases hfind : db.findByNode call.nodeId with
        | none =>
            simp only [hfind, Option.some.injEq, Prod.mk.injEq] at h
            obtain ⟨rfl, rfl⟩ := h
            exact .inr (.inr (.inl ⟨rfl, rfl, rfl, by simp⟩))
        | some r =>
            simp only [hfind] at h
            split_ifs at h with hlasts
            · simp only [Option.some.injEq, Prod.mk.injEq] at h
              obtain ⟨rfl, rfl⟩ := h
              obtain ⟨d, hd, hfp, -⟩ :=
                (hrows r (CertificateDb.mem_of_findByNode hfind).1).decode
              refine .inr (.inl ⟨rfl, rfl, d, by rw [hd], ?_⟩)
              rw [CertificateDb.getNodeFingerprint, hfind, hfp]
              rfl
            · simp only [Option.some.injEq, Prod.mk.injEq] at h
              obtain ⟨rfl, rfl⟩ := h
              refine .inr (.inr (.inl ⟨rfl, rfl, rfl, ?_⟩))
              rintro ⟨r', hr', hlasts'⟩
              obtain rfl := Option.some.inj hr'
              exact hlasts hlasts'
      · simp only [Option.some.injEq, Prod.mk.injEq] at h
        exact .inl ⟨h.1.symm, env.now, h.2.symm⟩
  | generate =>
      have hmaking : Making call := .inl hstage
      simp only [hstage] at h
      cases hmade : generateNodeCertificate tools env.selfSigned call.nodeId call.nodeName with
      | none =>
          simp only [hmade, Option.some.injEq, Prod.mk.injEq] at h
          exact .inl ⟨h.1.symm, env.now, h.2.symm⟩
      | some c =>
          simp only [hmade, Option.some.injEq, Prod.mk.injEq] at h
          obtain ⟨rfl, rfl⟩ := h
          exact .inr (.inr (.inr (.inl ⟨hmaking, rfl, .inr (.inl ⟨c, rfl⟩)⟩)))
  | find c =>
      have hmaking : Making call := .inr (.inl ⟨c, hstage⟩)
      simp only [hstage] at h
      split_ifs at h with hok
      · simp only [Option.some.injEq, Prod.mk.injEq] at h
        obtain ⟨rfl, rfl⟩ := h
        exact .inr (.inr (.inr (.inl ⟨hmaking, rfl, .inr (.inr ⟨c, _, _, rfl⟩)⟩)))
      · simp only [Option.some.injEq, Prod.mk.injEq] at h
        exact .inl ⟨h.1.symm, env.now, h.2.symm⟩
  | save c now existing =>
      have hmaking : Making call := .inr (.inr ⟨c, now, existing, hstage⟩)
      obtain ⟨-, howner⟩ := hcall.saving c now existing hstage
      simp only [hstage] at h
      cases hsave : (if env.ok then db.save existing call.nodeId c now else none) with
      | none =>
          simp only [hsave, Option.some.injEq, Prod.mk.injEq] at h
          exact .inl ⟨h.1.symm, now, h.2.symm⟩
      | some saved =>
          simp only [hsave, Option.some.injEq, Prod.mk.injEq] at h
          obtain ⟨rfl, rfl⟩ := h
          split_ifs at hsave
          refine .inr (.inr (.inr (.inr ⟨hmaking, now, c.data now, rfl, ?_⟩)))
          cases existing with
          | some id => exact saves_update (howner id rfl).2 hsave
          | none => exact saves_insert hsave
  | returned now result => simp [hstage] at h

end Calls

/-! ## What a step can do -/

section Steps

variable {tools : CertTools D K} {s t : Deployment D K} {i k : ℕ}

theorem step_connect {nodeName : String} (h : s.step tools (.connect i nodeName) = some t) :
    ∃ a, s.agents[i]? = some a ∧ a.nodeId ∈ s.manager.db.nodes ∧
      t = { s.setAgent i { a with registration := some s.manager.calls.length } with
        manager :=
          { s.manager with calls := s.manager.calls ++ [⟨a.nodeId, nodeName, .check⟩] } } := by
  simp only [step, Option.bind_eq_bind, Option.bind_eq_some_iff] at h
  obtain ⟨a, ha, h⟩ := h
  have hconnect : (if a.nodeId ∈ s.manager.db.nodes then
      (s.manager.step tools (.getOrGenerate a.nodeId nodeName)).bind fun manager ↦
        some { s.setAgent i { a with registration := some s.manager.calls.length } with manager }
      else none) = some t := by
    cases hstage : a.stage with
    | exited => simp [hstage] at h
    | starting => simpa only [hstage] using h
    | running cert key issued => simpa only [hstage] using h
  split_ifs at hconnect with hmem
  exact ⟨a, ha, hmem, (Option.some.inj hconnect).symm⟩

theorem step_next {env : CertificateEnv} (h : s.step tools (.next k env) = some t) :
    ∃ manager, s.manager.step tools (.next k env) = some manager ∧ t = { s with manager } := by
  simp only [step, Option.bind_eq_bind, Option.bind_eq_some_iff] at h
  obtain ⟨manager, hmanager, ht⟩ := h
  exact ⟨manager, hmanager, (Option.some.inj ht).symm⟩

theorem step_register {temporary : Option (D × K)}
    (h : s.step tools (.register i temporary) = some t) :
    ∃ a j call now answer, s.agents[i]? = some a ∧ a.registration = some j ∧
      s.manager.calls[j]? = some call ∧ call.stage = .returned now answer ∧
      t = s.setAgent i (a.registered tools answer temporary) := by
  simp only [step, Option.bind_eq_bind, Option.bind_eq_some_iff] at h
  obtain ⟨a, ha, j, hj, call, hget, h⟩ := h
  cases hreturned : call.stage with
  | returned now answer =>
      simp only [hreturned, Option.some.injEq] at h
      exact ⟨a, j, call, now, answer, ha, hj, hget, hreturned, h.symm⟩
  | _ => simp [hreturned] at h

theorem step_exit (h : s.step tools (.exit i) = some t) :
    ∃ a, s.agents[i]? = some a ∧
      t = s.setAgent i { a with registration := none, stage := .exited } := by
  simp only [step, Option.bind_eq_bind, Option.bind_eq_some_iff] at h
  obtain ⟨a, ha, ht⟩ := h
  exact ⟨a, ha, (Option.some.inj ht).symm⟩

end Steps

/-! ## The invariant -/

section Pinned

open CertificateManager

variable {tools : CertTools D K} {s t : Deployment D K}

structure Pinned (tools : CertTools D K) (s : Deployment D K) : Prop where
  sound : Sound tools (fun _ _ ↦ True) s.manager
  told : ∀ a ∈ s.agents, ∀ fp, Uses s.manager.calls a tools.fingerprint fp →
    a.nodeId ∈ s.manager.db.nodes → s.manager.db.getNodeFingerprint a.nodeId = some fp
  alone : ∀ nodeId, s.MakesFor nodeId → ¬ s.UsedBy tools nodeId
  one : ∀ (i j : ℕ) call call', s.manager.calls[i]? = some call → s.manager.calls[j]? = some call' →
    Making call → Making call' → call.nodeId = call'.nodeId → i = j
  known : ∀ a ∈ s.agents, (a.registration ≠ none ∨ ∃ cert key, a.stage = .running cert key true) →
    a.nodeId < s.manager.db.nextNode
  registered : ∀ a ∈ s.agents, ∀ j, a.registration = some j →
    ∃ call, s.manager.calls[j]? = some call ∧ call.nodeId = a.nodeId

theorem pinned_start : Pinned tools (start : Deployment D K) where
  sound := sound_start
  told a ha := by cases ha
  alone nodeId h := by
    obtain ⟨call, hcall, -⟩ := h
    cases hcall
  one i j call call' h := by simp [start, CertificateManager.start] at h
  known a ha := by cases ha
  registered a ha := by cases ha

/-- A process is replaced by one that uses no certificate which it did not use. -/
theorem Pinned.setAgent (hs : Pinned tools s) {i : ℕ} {a a' : Agent D K}
    (ha : s.agents[i]? = some a) (hnode : a'.nodeId = a.nodeId)
    (hregistration : a'.registration = none)
    (huses : ∀ fp, Uses s.manager.calls a' tools.fingerprint fp →
      Uses s.manager.calls a tools.fingerprint fp)
    (hknown : ∀ cert key, a'.stage = .running cert key true → a.nodeId < s.manager.db.nextNode) :
    Pinned tools (s.setAgent i a') where
  sound := hs.sound
  told b hb fp hfp hmem := by
    rcases List.mem_or_eq_of_mem_set hb with hold | rfl
    · exact hs.told b hold fp hfp hmem
    · rw [hnode] at hmem ⊢
      exact hs.told a (List.mem_of_getElem? ha) fp (huses fp hfp) hmem
  alone nodeId hmakes := by
    rintro ⟨b, hb, hb_node, fp, hfp⟩
    refine hs.alone nodeId hmakes ?_
    rcases List.mem_or_eq_of_mem_set hb with hold | rfl
    · exact ⟨b, hold, hb_node, fp, hfp⟩
    · exact ⟨a, List.mem_of_getElem? ha, hnode.symm.trans hb_node, fp, huses fp hfp⟩
  one := hs.one
  known b hb h := by
    rcases List.mem_or_eq_of_mem_set hb with hold | rfl
    · exact hs.known b hold h
    · rcases h with hne | ⟨cert, key, hrunning⟩
      · exact (hne hregistration).elim
      · rw [hnode]
        exact hknown cert key hrunning
  registered b hb j hj := by
    rcases List.mem_or_eq_of_mem_set hb with hold | rfl
    · exact hs.registered b hold j hj
    · rw [hregistration] at hj
      cases hj

/-- The nodes change and no certificate of a node that stays. -/
theorem Pinned.setDb (hs : Pinned tools s) {db : CertificateDb}
    (hsound : Sound tools (fun _ _ ↦ True) { s.manager with db })
    (hnext : s.manager.db.nextNode ≤ db.nextNode)
    (hkept : ∀ n ∈ db.nodes, n < s.manager.db.nextNode → n ∈ s.manager.db.nodes ∧
      ∀ fp, s.manager.db.getNodeFingerprint n = some fp → db.getNodeFingerprint n = some fp) :
    Pinned tools { s with manager := { s.manager with db } } where
  sound := hsound
  told a ha fp hfp hmem := by
    have hlt : a.nodeId < s.manager.db.nextNode := by
      refine hs.known a ha ?_
      rcases hfp with ⟨cert, key, hrunning, -⟩ | ⟨-, j, -, -, -, hj, -⟩
      · exact .inr ⟨cert, key, hrunning⟩
      · exact .inl (by simp [hj])
    obtain ⟨hold, hfps⟩ := hkept a.nodeId hmem hlt
    exact hfps fp (hs.told a ha fp hfp hold)
  alone := hs.alone
  one := hs.one
  known a ha h := (hs.known a ha h).trans_le hnext
  registered := hs.registered

/-- With one call set, a process may come to use the answer of that call. -/
theorem Uses.of_set {calls : List CertificateCall} {k : ℕ} {call' : CertificateCall}
    {a : Agent D K} {fingerprint : D → String} {fp : String}
    (h : Uses (calls.set k call') a fingerprint fp) :
    Uses calls a fingerprint fp ∨
      a.registration = some k ∧ ∃ now d, call'.stage = .returned now (some d) ∧ d.fingerprint = fp := by
  rcases h with hrunning | ⟨hstage, j, call, now, d, hj, hcall, hreturned, hfp⟩
  · exact .inl (.inl hrunning)
  · by_cases hk : k = j
    · subst hk
      rw [List.getElem?_set_self'] at hcall
      obtain ⟨old, -, rfl⟩ := Option.map_eq_some_iff.mp hcall
      exact .inr ⟨hj, now, d, hreturned, hfp⟩
    · rw [List.getElem?_set_ne hk] at hcall
      exact .inl (.inr ⟨hstage, j, call, now, d, hj, hcall, hreturned, hfp⟩)

/-- A call that makes a certificate after the step made one before, unless it is the
call that took the step. -/
theorem making_of_set {calls : List CertificateCall} {j k : ℕ} {call call' : CertificateCall}
    (h : (calls.set k call')[j]? = some call) : calls[j]? = some call ∨ j = k ∧ call = call' := by
  by_cases hk : k = j
  · subst hk
    rw [List.getElem?_set_self'] at h
    obtain ⟨old, -, rfl⟩ := Option.map_eq_some_iff.mp h
    exact .inr ⟨rfl, rfl⟩
  · rw [List.getElem?_set_ne hk] at h
    exact .inl h

/-- The registrations of the processes are still those of their nodes. -/
theorem Pinned.registered_set (hs : Pinned tools s) {k : ℕ} {call : CertificateCall}
    (hget : s.manager.calls[k]? = some call) (stage : CertificateStage) :
    ∀ a ∈ s.agents, ∀ j, a.registration = some j →
      ∃ call', (s.manager.calls.set k { call with stage })[j]? = some call' ∧
        call'.nodeId = a.nodeId := by
  intro a ha j hj
  obtain ⟨call', hcall', hnode⟩ := hs.registered a ha j hj
  by_cases hk : k = j
  · subst hk
    obtain rfl := Option.some.inj (hget.symm.trans hcall')
    refine ⟨{ call with stage }, ?_, hnode⟩
    rw [List.getElem?_set_self', hget]
    rfl
  · refine ⟨call', ?_, hnode⟩
    rw [List.getElem?_set_ne hk]
    exact hcall'

/-- A step of a call that leaves the tables alone and gives no certificate; if the
call makes one from now on, no process of its node has one. -/
theorem Pinned.set_call (hs : Pinned tools s) {k : ℕ} {call : CertificateCall}
    {stage : CertificateStage} (hget : s.manager.calls[k]? = some call)
    (hsound : Sound tools (fun _ _ ↦ True)
      { s.manager with calls := s.manager.calls.set k { call with stage } })
    (hanswer : ∀ now d, stage ≠ .returned now (some d))
    (hmaking : Making { call with stage } → Making call ∨
      ¬ s.MakesFor call.nodeId ∧ ¬ s.UsedBy tools call.nodeId) :
    Pinned tools
      { s with manager :=
        { s.manager with calls := s.manager.calls.set k { call with stage } } } := by
  have huses : ∀ (a : Agent D K) fp,
      Uses (s.manager.calls.set k { call with stage }) a tools.fingerprint fp →
        Uses s.manager.calls a tools.fingerprint fp := by
    intro a fp h
    rcases h.of_set with hold | ⟨-, now, d, hreturned, -⟩
    · exact hold
    · exact (hanswer now d hreturned).elim
  have hcall_mem := List.mem_of_getElem? hget
  refine ⟨hsound, fun a ha fp hfp ↦ hs.told a ha fp (huses a fp hfp), ?_, ?_, hs.known,
    hs.registered_set hget stage⟩
  · rintro nodeId ⟨call', hcall', hnode, hmakes⟩ ⟨a, ha, ha_node, fp, hfp⟩
    have hused : s.UsedBy tools nodeId := ⟨a, ha, ha_node, fp, huses a fp hfp⟩
    rcases List.mem_or_eq_of_mem_set hcall' with hold | rfl
    · exact hs.alone nodeId ⟨call', hold, hnode, hmakes⟩ hused
    · obtain rfl : call.nodeId = nodeId := hnode
      rcases hmaking hmakes with hbefore | ⟨-, hfree⟩
      · exact hs.alone _ ⟨call, hcall_mem, rfl, hbefore⟩ hused
      · exact hfree hused
  · intro i j call₁ call₂ h₁ h₂ hmakes₁ hmakes₂ hnode
    rcases making_of_set h₁ with hold₁ | ⟨rfl, rfl⟩ <;>
      rcases making_of_set h₂ with hold₂ | ⟨rfl, rfl⟩
    · exact hs.one i j call₁ call₂ hold₁ hold₂ hmakes₁ hmakes₂ hnode
    · rcases hmaking hmakes₂ with hbefore | ⟨hfree, -⟩
      · exact hs.one i j call₁ call hold₁ hget hmakes₁ hbefore hnode
      · exact (hfree ⟨call₁, List.mem_of_getElem? hold₁, hnode, hmakes₁⟩).elim
    · rcases hmaking hmakes₁ with hbefore | ⟨hfree, -⟩
      · exact hs.one i j call call₂ hget hold₂ hbefore hmakes₂ hnode
      · exact (hfree ⟨call₂, List.mem_of_getElem? hold₂, hnode.symm, hmakes₂⟩).elim
    · rfl

/-- A call answers with a certificate that clients are told of, while no other call
makes one for the node, and no process has another one. -/
theorem Pinned.answer (hs : Pinned tools s) {k : ℕ} {call : CertificateCall} {db : CertificateDb}
    {now : Timestamp} {d : NodeCertificateData} (hget : s.manager.calls[k]? = some call)
    (hsound : Sound tools (fun _ _ ↦ True)
      ⟨db, s.manager.calls.set k { call with stage := .returned now (some d) }⟩)
    (hsaves : Saves s.manager.db db call.nodeId d.fingerprint)
    (hothers : ∀ j call', s.manager.calls[j]? = some call' → Making call' →
      call'.nodeId = call.nodeId → j = k)
    (hold : s.manager.db.getNodeFingerprint call.nodeId = some d.fingerprint ∨
      ¬ s.UsedBy tools call.nodeId) :
    Pinned tools { s with manager :=
      ⟨db, s.manager.calls.set k { call with stage := .returned now (some d) }⟩ } := by
  have hanswered : ∀ now, ¬ Making { call with stage := .returned now (some d) } := by
    rintro now (h | ⟨c, h⟩ | ⟨c, now', id, h⟩) <;> cases h
  refine ⟨hsound, ?_, ?_, ?_, ?_, hs.registered_set hget _⟩
  · intro a ha fp hfp hmem
    have hmem : a.nodeId ∈ s.manager.db.nodes := hsaves.nodes ▸ hmem
    rcases hfp.of_set with huses | ⟨hregistration, now', d', hreturned, hfp⟩
    · by_cases hnode : a.nodeId = call.nodeId
      · have htold := hs.told a ha fp huses hmem
        rcases hold with hfp' | hfree
        · obtain rfl := Option.some.inj ((hnode ▸ htold).symm.trans hfp')
          rw [hnode]
          exact hsaves.saved
        · exact (hfree ⟨a, ha, hnode, fp, huses⟩).elim
      · exact hsaves.kept a.nodeId fp hnode (hs.told a ha fp huses hmem)
    · obtain ⟨call', hcall', hnode⟩ := hs.registered a ha k hregistration
      obtain rfl := Option.some.inj (hget.symm.trans hcall')
      simp only [CertificateStage.returned.injEq, Option.some.injEq] at hreturned
      obtain ⟨-, rfl⟩ := hreturned
      rw [← hnode, ← hfp]
      exact hsaves.saved
  · rintro nodeId ⟨call', hcall', hnode, hmakes⟩ ⟨a, ha, ha_node, fp, hfp⟩
    obtain ⟨j, hj⟩ := List.mem_iff_getElem?.mp hcall'
    rcases making_of_set hj with hold_call | ⟨-, rfl⟩
    · rcases hfp.of_set with huses | ⟨hregistration, -⟩
      · exact hs.alone nodeId ⟨call', List.mem_of_getElem? hold_call, hnode, hmakes⟩
          ⟨a, ha, ha_node, fp, huses⟩
      · obtain ⟨call'', hcall'', hnode''⟩ := hs.registered a ha k hregistration
        obtain rfl := Option.some.inj (hget.symm.trans hcall'')
        have hsame := hothers j call' hold_call hmakes (hnode.trans (ha_node.symm.trans hnode''.symm))
        subst hsame
        rw [List.getElem?_set_self', hget] at hj
        obtain rfl := Option.some.inj hj
        exact hanswered now hmakes
    · exact hanswered now hmakes
  · intro i j call₁ call₂ h₁ h₂ hmakes₁ hmakes₂ hnode
    rcases making_of_set h₁ with hold₁ | ⟨-, rfl⟩
    · rcases making_of_set h₂ with hold₂ | ⟨-, rfl⟩
      · exact hs.one i j call₁ call₂ hold₁ hold₂ hmakes₁ hmakes₂ hnode
      · exact (hanswered now hmakes₂).elim
    · exact (hanswered now hmakes₁).elim
  · intro a ha h
    rw [show (⟨db, _⟩ : CertificateManager).db.nextNode = s.manager.db.nextNode from hsaves.nextNode]
    exact hs.known a ha h

theorem Saves.refl {db : CertificateDb} {nodeId : ℤ} {fp : String}
    (h : db.getNodeFingerprint nodeId = some fp) : Saves db db nodeId fp :=
  ⟨rfl, rfl, h, fun _ _ _ hfp ↦ hfp⟩

theorem Pinned.next (hs : Pinned tools s) {k : ℕ} {env : CertificateEnv} {m : CertificateManager}
    (hapart : s.Apart tools (.next k env))
    (hstep : s.manager.step tools (.next k env) = some m) :
    Pinned tools { s with manager := m } := by
  have hsound : Sound tools (fun _ _ ↦ True) m :=
    hs.sound.step (i := .next k env) (fun _ _ _ _ _ ↦ trivial) hstep
  simp only [CertificateManager.step, Option.bind_eq_bind, Option.bind_eq_some_iff] at hstep
  obtain ⟨call, hget, ⟨db, stage⟩, hnext, hm⟩ := hstep
  obtain rfl := Option.some.inj hm
  have hmem := List.mem_of_getElem? hget
  rcases next_cases hs.sound.rows (hs.sound.calls call hmem) hnext with
    ⟨rfl, now, rfl⟩ | ⟨hcheck, rfl, d, rfl, hfp⟩ | ⟨hcheck, rfl, rfl, hdue⟩ |
    ⟨hmakes, rfl, hstill⟩ | ⟨hmakes, now, d, rfl, hsaves⟩
  · refine hs.set_call hget hsound (by simp) ?_
    rintro (h | ⟨c, h⟩ | ⟨c, now', id, h⟩) <;> cases h
  · obtain ⟨hfree, -⟩ := hapart call hget hcheck
    refine hs.answer hget hsound (.refl hfp) (fun j call' hj hmakes hnode ↦ ?_) (.inl hfp)
    exact (hfree ⟨call', List.mem_of_getElem? hj, hnode, hmakes⟩).elim
  · obtain ⟨hfree, hlasts⟩ := hapart call hget hcheck
    exact hs.set_call hget hsound (by simp) fun _ ↦ .inr ⟨hfree, hlasts.resolve_left hdue⟩
  · refine hs.set_call hget hsound (fun now d hreturned ↦ ?_) fun _ ↦ .inl hmakes
    subst hreturned
    rcases hstill with h | ⟨c, h⟩ | ⟨c, now', id, h⟩ <;> cases h
  · refine hs.answer hget hsound hsaves (fun j call' hj hmakes' hnode ↦ ?_) (.inr ?_)
    · exact hs.one j k call' call hj hget hmakes' hmakes hnode
    · exact hs.alone call.nodeId ⟨call, hmem, rfl, hmakes⟩

/-- An answered certificate that a process can use has the answered fingerprint. -/
theorem Pinned.uses_startProxyServer (hs : Pinned tools s) {a : Agent D K} {j : ℕ}
    {call : CertificateCall} {now : Timestamp} {answer : Option NodeCertificateData}
    (hstarting : a.stage = .starting) (hj : a.registration = some j)
    (hget : s.manager.calls[j]? = some call) (hreturned : call.stage = .returned now answer)
    {temporary : Option (D × K)} {cert : D} {key : K}
    (h : startProxyServer tools answer temporary = .running cert key true) :
    Uses s.manager.calls a tools.fingerprint (tools.fingerprint cert) := by
  cases answer with
  | none => rcases temporary with _ | ⟨c, k⟩ <;> simp [startProxyServer] at h
  | some d =>
      have hanswers := hs.sound.trustworthy.answers call (List.mem_of_getElem? hget)
      have hfp := (hanswers now d hreturned).1.fingerprint
      refine .inr ⟨hstarting, j, call, now, d, hj, hget, hreturned, ?_⟩
      simp only [startProxyServer] at h
      cases hcert : tools.firstCert d.certPem with
      | none => simp [hcert] at h
      | some cert' =>
          cases hkey : tools.privateKey d.keyPem with
          | none => simp [hcert, hkey] at h
          | some key' =>
              simp only [hcert, hkey, AgentStage.running.injEq] at h
              obtain ⟨rfl, -, -⟩ := h
              rw [CertTools.fingerprintFromPem, hcert] at hfp
              exact (Option.some.inj hfp).symm

/-- A process that is running, or has exited, reads its answer for nothing. -/
theorem Pinned.forget (hs : Pinned tools s) {i j : ℕ} {a : Agent D K} (ha : s.agents[i]? = some a)
    (hj : a.registration = some j) : Pinned tools (s.setAgent i { a with registration := none }) := by
  have hlt := hs.known a (List.mem_of_getElem? ha) (.inl (by simp [hj]))
  refine hs.setAgent ha rfl rfl (fun fp huses ↦ ?_) fun _ _ _ ↦ hlt
  rcases huses with hrunning | ⟨-, j, call, now, d, hnone, -⟩
  · exact .inl hrunning
  · cases hnone

theorem Pinned.register (hs : Pinned tools s) {i j : ℕ} {a : Agent D K} {call : CertificateCall}
    {now : Timestamp} {answer : Option NodeCertificateData} (ha : s.agents[i]? = some a)
    (hj : a.registration = some j) (hget : s.manager.calls[j]? = some call)
    (hreturned : call.stage = .returned now answer) (temporary : Option (D × K)) :
    Pinned tools (s.setAgent i (a.registered tools answer temporary)) := by
  unfold Agent.registered
  cases hstage : a.stage with
  | starting =>
      have hlt := hs.known a (List.mem_of_getElem? ha) (.inl (by simp [hj]))
      refine hs.setAgent ha rfl rfl (fun fp huses ↦ ?_) fun _ _ _ ↦ hlt
      rcases huses with ⟨cert, key, hrunning, rfl⟩ | ⟨-, j, call, now, d, hnone, -⟩
      · exact hs.uses_startProxyServer hstage hj hget hreturned hrunning
      · cases hnone
  | running cert key issued => simpa only [hstage] using hs.forget ha hj
  | exited => simpa only [hstage] using hs.forget ha hj

theorem Pinned.launch (hs : Pinned tools s) (nodeId : ℤ) :
    Pinned tools { s with agents := s.agents ++ [⟨nodeId, none, .starting⟩] } := by
  have hunused : ∀ fp, ¬ Uses s.manager.calls (⟨nodeId, none, .starting⟩ : Agent D K)
      tools.fingerprint fp := by
    rintro fp (⟨cert, key, h, -⟩ | ⟨-, j, call, now, d, h, -⟩) <;> cases h
  refine ⟨hs.sound, fun a ha fp huses hmem ↦ ?_, fun n hmakes hused ↦ ?_, hs.one,
    fun a ha h ↦ ?_, fun a ha j hj ↦ ?_⟩
  · rcases List.mem_append.mp ha with hold | hnew
    · exact hs.told a hold fp huses hmem
    · rw [List.mem_singleton.mp hnew] at huses
      exact (hunused fp huses).elim
  · obtain ⟨a, ha, hnode, fp, huses⟩ := hused
    rcases List.mem_append.mp ha with hold | hnew
    · exact hs.alone n hmakes ⟨a, hold, hnode, fp, huses⟩
    · rw [List.mem_singleton.mp hnew] at huses
      exact hunused fp huses
  · rcases List.mem_append.mp ha with hold | hnew
    · exact hs.known a hold h
    · rw [List.mem_singleton.mp hnew] at h
      simp at h
  · rcases List.mem_append.mp ha with hold | hnew
    · exact hs.registered a hold j hj
    · rw [List.mem_singleton.mp hnew] at hj
      cases hj

/-- A new call does not give anything to a process. -/
theorem Uses.of_append {calls : List CertificateCall} {new : CertificateCall}
    (hnew : new.stage = .check) {a : Agent D K} {fingerprint : D → String} {fp : String}
    (h : Uses (calls ++ [new]) a fingerprint fp) : Uses calls a fingerprint fp := by
  rcases h with hrunning | ⟨hstage, j, call, now, d, hj, hcall, hreturned, hfp⟩
  · exact .inl hrunning
  · rw [List.getElem?_append] at hcall
    split_ifs at hcall with hlt
    · exact .inr ⟨hstage, j, call, now, d, hj, hcall, hreturned, hfp⟩
    · obtain rfl := List.mem_singleton.mp (List.mem_of_getElem? hcall)
      cases hnew.symm.trans hreturned

theorem Pinned.connect (hs : Pinned tools s) {i : ℕ} {a : Agent D K} (ha : s.agents[i]? = some a)
    (hmem : a.nodeId ∈ s.manager.db.nodes) (nodeName : String) :
    Pinned tools
      { s.setAgent i { a with registration := some s.manager.calls.length } with
        manager :=
          { s.manager with calls := s.manager.calls ++ [⟨a.nodeId, nodeName, .check⟩] } } := by
  set new : CertificateCall := ⟨a.nodeId, nodeName, .check⟩ with hnew
  have hcheck : ¬ Making new := by
    rintro (h | ⟨c, h⟩ | ⟨c, now', id, h⟩) <;> cases h
  have hold_call : ∀ (j : ℕ) call, (s.manager.calls ++ [new])[j]? = some call → Making call →
      s.manager.calls[j]? = some call := by
    intro j call hcall hmakes
    rw [List.getElem?_append] at hcall
    split_ifs at hcall with hlt
    · exact hcall
    · rw [List.mem_singleton.mp (List.mem_of_getElem? hcall)] at hmakes
      exact (hcheck hmakes).elim
  have hconnected : ∀ fp, Uses (s.manager.calls ++ [new])
      { a with registration := some s.manager.calls.length } tools.fingerprint fp →
      Uses s.manager.calls a tools.fingerprint fp := by
    rintro fp (hrunning | ⟨-, j, call, now, d, hj, hcall, hreturned, -⟩)
    · exact .inl hrunning
    · obtain rfl := Option.some.inj hj
      rw [List.getElem?_append_right le_rfl, Nat.sub_self] at hcall
      obtain rfl := Option.some.inj hcall
      cases hreturned
  have huses : ∀ b ∈ s.agents.set i { a with registration := some s.manager.calls.length }, ∀ fp,
      Uses (s.manager.calls ++ [new]) b tools.fingerprint fp →
        ∃ b' ∈ s.agents, b'.nodeId = b.nodeId ∧ Uses s.manager.calls b' tools.fingerprint fp := by
    intro b hb fp hfp
    rcases List.mem_or_eq_of_mem_set hb with hold | rfl
    · exact ⟨b, hold, rfl, hfp.of_append rfl⟩
    · exact ⟨a, List.mem_of_getElem? ha, rfl, hconnected fp hfp⟩
  refine ⟨hs.sound.add ⟨by simp [hnew], by simp [hnew], by simp [hnew]⟩,
    fun b hb fp hfp hb_mem ↦ ?_, ?_, ?_, fun b hb h ↦ ?_, fun b hb j hj ↦ ?_⟩
  · obtain ⟨b', hb', hnode, hfp'⟩ := huses b hb fp hfp
    rw [← hnode] at hb_mem ⊢
    exact hs.told b' hb' fp hfp' hb_mem
  · rintro nodeId ⟨call, hcall, hnode, hmakes⟩ ⟨b, hb, hb_node, fp, hfp⟩
    obtain ⟨j, hj⟩ := List.mem_iff_getElem?.mp hcall
    obtain ⟨b', hb', hb'_node, hfp'⟩ := huses b hb fp hfp
    exact hs.alone nodeId ⟨call, List.mem_of_getElem? (hold_call j call hj hmakes), hnode, hmakes⟩
      ⟨b', hb', hb'_node.trans hb_node, fp, hfp'⟩
  · intro j j' call call' hj hj' hmakes hmakes' hnode
    exact hs.one j j' call call' (hold_call j call hj hmakes) (hold_call j' call' hj' hmakes')
      hmakes hmakes' hnode
  · rcases List.mem_or_eq_of_mem_set hb with hold | rfl
    · exact hs.known b hold h
    · exact s.manager.db.nodes_lt a.nodeId hmem
  · rcases List.mem_or_eq_of_mem_set hb with hold | rfl
    · obtain ⟨call, hcall, hnode⟩ := hs.registered b hold j hj
      obtain ⟨hlt, -⟩ := List.getElem?_eq_some_iff.mp hcall
      exact ⟨call, (List.getElem?_append_left hlt).trans hcall, hnode⟩
    · obtain rfl := Option.some.inj hj
      refine ⟨new, ?_, rfl⟩
      rw [List.getElem?_append_right le_rfl, Nat.sub_self]
      rfl

theorem Pinned.step {i : DeploymentInput D K} (hs : Pinned tools s) (hapart : s.Apart tools i)
    (hstep : s.step tools i = some t) : Pinned tools t := by
  cases i with
  | createNode =>
      obtain rfl := Option.some.inj hstep
      refine hs.setDb (hs.sound.of_subset rfl fun r hr ↦ hr) (lt_add_one _).le fun n hn hlt ↦ ?_
      refine ⟨?_, fun fp hfp ↦ hfp⟩
      rcases List.mem_append.mp hn with hold | hnew
      · exact hold
      · rw [List.mem_singleton.mp hnew] at hlt
        exact (lt_irrefl _ hlt).elim
  | deleteNode nodeId =>
      obtain rfl := Option.some.inj hstep
      refine hs.setDb (hs.sound.of_subset rfl fun r hr ↦ (List.mem_filter.mp hr).1) le_rfl
        fun n hn _ ↦ ?_
      obtain ⟨hmem, hne⟩ := List.mem_filter.mp hn
      refine ⟨hmem, fun fp hfp ↦ ?_⟩
      obtain ⟨r, hr, rfl, hr_fp⟩ := CertificateDb.getNodeFingerprint_eq_some.mp hfp
      exact CertificateDb.getNodeFingerprint_eq_some.mpr
        ⟨r, List.mem_filter.mpr ⟨hr, hne⟩, rfl, hr_fp⟩
  | launch nodeId =>
      obtain rfl := Option.some.inj hstep
      exact hs.launch nodeId
  | connect i nodeName =>
      obtain ⟨a, ha, hmem, rfl⟩ := step_connect hstep
      exact hs.connect ha hmem nodeName
  | next k env =>
      obtain ⟨manager, hmanager, rfl⟩ := step_next hstep
      exact hs.next hapart hmanager
  | register i temporary =>
      obtain ⟨a, j, call, now, answer, ha, hj, hget, hreturned, rfl⟩ := step_register hstep
      exact hs.register ha hj hget hreturned temporary
  | exit i =>
      obtain ⟨a, ha, rfl⟩ := step_exit hstep
      refine hs.setAgent ha rfl rfl (fun fp h ↦ ?_) (by simp)
      rcases h with ⟨cert, key, h, -⟩ | ⟨h, -⟩ <;> cases h

end Pinned

/-- In a run in which no two registrations of a node make certificates at a time,
and none is renewed while a process of the node has one, a client that has the
fingerprint of the controller's table takes the certificate of a running process
with a certificate from the controller, and no certificate with another fingerprint. -/
theorem pinned_certificates (tools : CertTools D K) {inputs : List (DeploymentInput D K)}
    {s : Deployment D K} (hapart : Within (step tools) (Apart tools) start inputs)
    (hrun : run (step tools) start inputs = some s) {a : Agent D K} (ha : a ∈ s.agents) {cert : D}
    {key : K} (hrunning : a.stage = .running cert key true) (hnode : a.nodeId ∈ s.manager.db.nodes)
    (t : ConnectionTask)
    (htold : t.certFingerprints = (s.manager.db.getNodeFingerprint a.nodeId).toList) (cert' : D) :
    Accepts tools t cert' ↔ tools.fingerprint cert' = tools.fingerprint cert := by
  have hs : Pinned tools s :=
    run_invariant (fun _ _ _ hs hi hstep ↦ hs.step hi hstep) pinned_start hapart hrun
  have hfp := hs.told a ha _ (.inl ⟨cert, key, hrunning, rfl⟩) hnode
  rw [hfp] at htold
  exact accepts_iff_of_fingerprint htold cert'

/-! ## Any run -/

theorem sound_step {tools : CertTools D K} {s t : Deployment D K} {i : DeploymentInput D K}
    (hs : CertificateManager.Sound tools (fun _ _ ↦ True) s.manager)
    (hstep : s.step tools i = some t) :
    CertificateManager.Sound tools (fun _ _ ↦ True) t.manager := by
  cases i with
  | createNode =>
      obtain rfl := Option.some.inj hstep
      exact hs.step (i := .createNode) trivial rfl
  | deleteNode nodeId =>
      obtain rfl := Option.some.inj hstep
      exact hs.step (i := .deleteNode nodeId) trivial rfl
  | launch nodeId =>
      obtain rfl := Option.some.inj hstep
      exact hs
  | connect i nodeName =>
      obtain ⟨a, -, -, rfl⟩ := step_connect hstep
      exact hs.step (i := .getOrGenerate a.nodeId nodeName) trivial rfl
  | next k env =>
      obtain ⟨manager, hmanager, rfl⟩ := step_next hstep
      exact hs.step (i := .next k env) (fun _ _ _ _ _ ↦ trivial) hmanager
  | register i temporary =>
      obtain ⟨a, j, call, now, answer, -, -, -, -, rfl⟩ := step_register hstep
      exact hs
  | exit i =>
      obtain ⟨a, -, rfl⟩ := step_exit hstep
      exact hs

section Renewal

open CertificateManager

variable {tools : CertTools D K} {s t u : Deployment D K} {i : ℕ} {nodeId : ℤ} {cert : D} {key : K}
  {issued : Bool} {fp : String}

/-- The process of the node runs with the certificate. -/
def RunsWith (i : ℕ) (nodeId : ℤ) (cert : D) (key : K) (issued : Bool) (s : Deployment D K) : Prop :=
  ∃ a, s.agents[i]? = some a ∧ a.nodeId = nodeId ∧ a.stage = .running cert key issued

/-- The node stays, and no call goes on making a certificate for it. -/
def Leaves (nodeId : ℤ) (s : Deployment D K) : DeploymentInput D K → Prop
  | .deleteNode n => n ≠ nodeId
  | .next k _ => ∀ call, s.manager.calls[k]? = some call → call.nodeId = nodeId → ¬ Making call
  | _ => True

theorem RunsWith.setAgent (hs : RunsWith i nodeId cert key issued s) {j : ℕ} {a b : Agent D K}
    (ha : s.agents[j]? = some a) (hnode : b.nodeId = a.nodeId)
    (hstage : j = i → a.stage = .running cert key issued → b.stage = a.stage) :
    RunsWith i nodeId cert key issued (s.setAgent j b) := by
  obtain ⟨c, hc, hcnode, hcstage⟩ := hs
  by_cases hij : j = i
  · subst hij
    obtain rfl := Option.some.inj (ha.symm.trans hc)
    have hlt : j < s.agents.length := (List.getElem?_eq_some_iff.mp ha).1
    exact ⟨b, List.getElem?_set_self hlt, hnode.trans hcnode, (hstage rfl hcstage).trans hcstage⟩
  · exact ⟨c, (List.getElem?_set_ne hij).trans hc, hcnode, hcstage⟩

/-- A certificate that comes with a later registration does not replace the first one. -/
theorem RunsWith.step {input : DeploymentInput D K} (hs : RunsWith i nodeId cert key issued s)
    (hexit : input ≠ .exit i) (h : s.step tools input = some t) :
    RunsWith i nodeId cert key issued t := by
  cases input with
  | createNode | deleteNode =>
      obtain rfl := Option.some.inj h
      exact hs
  | launch n =>
      obtain rfl := Option.some.inj h
      obtain ⟨a, ha, hnode, hstage⟩ := hs
      exact ⟨a, (List.getElem?_append_left (List.getElem?_eq_some_iff.mp ha).1).trans ha, hnode, hstage⟩
  | connect j nodeName =>
      obtain ⟨a, ha, -, rfl⟩ := step_connect h
      exact hs.setAgent ha rfl fun _ _ ↦ rfl
  | next k env =>
      obtain ⟨manager, -, rfl⟩ := step_next h
      exact hs
  | register j temporary =>
      obtain ⟨a, -, call, now, answer, ha, -, -, -, rfl⟩ := step_register h
      refine hs.setAgent ha ?_ fun _ hrunning ↦ ?_
      · cases hstage : a.stage <;> simp only [Agent.registered, hstage]
      · simp only [Agent.registered, hrunning]
  | exit j =>
      obtain ⟨a, ha, rfl⟩ := step_exit h
      refine hs.setAgent ha rfl fun hij ↦ ?_
      subst hij
      exact absurd rfl hexit

theorem RunsWith.run (hs : RunsWith i nodeId cert key issued s) {inputs : List (DeploymentInput D K)}
    (hexit : .exit i ∉ inputs) (hrun : run (Deployment.step tools) s inputs = some t) :
    RunsWith i nodeId cert key issued t := by
  have hok : Within (Deployment.step tools) (fun _ input ↦ input ≠ .exit i) s inputs :=
    within_of_forall fun input hinput _ heq ↦ hexit (heq ▸ hinput)
  exact run_invariant (fun _ _ _ hs hexit h ↦ RunsWith.step hs hexit h) hs hok hrun

/-- What clients are told of the node stays as it is. -/
theorem told_step {input : DeploymentInput D K} (hsound : Sound tools (fun _ _ ↦ True) s.manager)
    (htold : s.manager.db.getNodeFingerprint nodeId = some fp) (hleaves : Leaves nodeId s input)
    (h : s.step tools input = some t) : t.manager.db.getNodeFingerprint nodeId = some fp := by
  cases input with
  | createNode | launch =>
      obtain rfl := Option.some.inj h
      exact htold
  | deleteNode n =>
      obtain rfl := Option.some.inj h
      obtain ⟨r, hr, hnode, hfp⟩ := CertificateDb.getNodeFingerprint_eq_some.mp htold
      refine CertificateDb.getNodeFingerprint_eq_some.mpr
        ⟨r, List.mem_filter.mpr ⟨hr, decide_eq_true ?_⟩, hnode, hfp⟩
      rw [hnode]
      exact Ne.symm hleaves
  | connect j nodeName =>
      obtain ⟨a, -, -, rfl⟩ := step_connect h
      exact htold
  | next k env =>
      obtain ⟨manager, hmanager, rfl⟩ := step_next h
      simp only [CertificateManager.step, Option.bind_eq_bind, Option.bind_eq_some_iff] at hmanager
      obtain ⟨call, hget, ⟨db, stage⟩, hnext, hmanager⟩ := hmanager
      obtain rfl := Option.some.inj hmanager
      rcases next_cases hsound.rows (hsound.calls call (List.mem_of_getElem? hget)) hnext with
        ⟨rfl, -⟩ | ⟨-, rfl, -⟩ | ⟨-, rfl, -⟩ | ⟨-, rfl, -⟩ | ⟨hmakes, now, d, -, hsaves⟩
      · exact htold
      · exact htold
      · exact htold
      · exact htold
      · exact hsaves.kept nodeId fp (fun hnode ↦ hleaves call hget hnode.symm hmakes) htold
  | register j temporary =>
      obtain ⟨a, -, call, now, answer, -, -, -, -, rfl⟩ := step_register h
      exact htold
  | exit j =>
      obtain ⟨a, -, rfl⟩ := step_exit h
      exact htold

/-- A call that has made a certificate has stored it. -/
theorem told_of_made {k : ℕ} {env : CertificateEnv} {call call' : CertificateCall} {now : Timestamp}
    {d : NodeCertificateData} (hsound : Sound tools (fun _ _ ↦ True) s.manager)
    (h : s.step tools (.next k env) = some t) (hget : s.manager.calls[k]? = some call)
    (hmakes : Making call) (hget' : t.manager.calls[k]? = some call')
    (hanswer : call'.stage = .returned now (some d)) :
    t.manager.db.getNodeFingerprint call.nodeId = some d.fingerprint := by
  obtain ⟨manager, hmanager, rfl⟩ := step_next h
  simp only [CertificateManager.step, Option.bind_eq_bind, Option.bind_eq_some_iff] at hmanager
  obtain ⟨call₀, hget₀, ⟨db, stage⟩, hnext, hmanager⟩ := hmanager
  obtain rfl := Option.some.inj hmanager
  obtain rfl := Option.some.inj (hget.symm.trans hget₀)
  have hlt : k < s.manager.calls.length := (List.getElem?_eq_some_iff.mp hget).1
  rw [List.getElem?_set_self hlt] at hget'
  obtain rfl := Option.some.inj hget'
  obtain rfl : stage = .returned now (some d) := hanswer
  rcases next_cases hsound.rows (hsound.calls call (List.mem_of_getElem? hget)) hnext with
    ⟨-, now', h⟩ | ⟨hcheck, -⟩ | ⟨hcheck, -⟩ | ⟨-, -, hstill⟩ | ⟨-, now', d', h, hsaves⟩
  · cases h
  · rcases hmakes with h | ⟨c, h⟩ | ⟨c, now', id, h⟩ <;> cases hcheck.symm.trans h
  · rcases hmakes with h | ⟨c, h⟩ | ⟨c, now', id, h⟩ <;> cases hcheck.symm.trans h
  · rcases hstill with h | ⟨c, h⟩ | ⟨c, now', id, h⟩ <;> cases h
  · cases h
    exact hsaves.saved

end Renewal

/-- In every run, when a call has made a certificate for a node of which a process
is running with another one, the process runs with the old one until it exits,
whatever its later registrations bring.  As long as no other certificate is made
for the node, the clients that are told of the new one refuse the process. -/
theorem refused_after_renewal (tools : CertTools D K) {inputs later : List (DeploymentInput D K)}
    {s t u : Deployment D K} (hrun : run (step tools) start inputs = some s) {k : ℕ}
    {env : CertificateEnv} (hstep : s.step tools (.next k env) = some t)
    {call call' : CertificateCall} (hget : s.manager.calls[k]? = some call) (hmakes : Making call)
    (hget' : t.manager.calls[k]? = some call') {now : Timestamp} {d : NodeCertificateData}
    (hanswer : call'.stage = .returned now (some d)) {i : ℕ} {cert : D} {key : K} {issued : Bool}
    (hrunning : RunsWith i call.nodeId cert key issued s)
    (hother : tools.fingerprint cert ≠ d.fingerprint)
    (hlater : run (step tools) t later = some u) (hexit : .exit i ∉ later) :
    RunsWith i call.nodeId cert key issued u ∧
      (Within (step tools) (Leaves call.nodeId) t later → ∀ task : ConnectionTask,
        task.certFingerprints = (u.manager.db.getNodeFingerprint call.nodeId).toList →
          ¬ Accepts tools task cert) := by
  have hsound := run_invariant_of_step (fun _ _ _ hs hstep ↦ sound_step hs hstep)
    CertificateManager.sound_start hrun
  have hkeep : ∀ (s : Deployment D K) input t,
      CertificateManager.Sound tools (fun _ _ ↦ True) s.manager ∧
        s.manager.db.getNodeFingerprint call.nodeId = some d.fingerprint →
      Leaves call.nodeId s input → s.step tools input = some t →
      CertificateManager.Sound tools (fun _ _ ↦ True) t.manager ∧
        t.manager.db.getNodeFingerprint call.nodeId = some d.fingerprint :=
    fun _ _ _ hs hleaves h ↦ ⟨sound_step hs.1 h, told_step hs.1 hs.2 hleaves h⟩
  refine ⟨(hrunning.step (fun h ↦ by cases h) hstep).run hexit hlater, fun hleaves task htold ↦ ?_⟩
  have htold_new := told_of_made hsound hstep hget hmakes hget' hanswer
  obtain ⟨-, hfp⟩ := run_invariant hkeep ⟨sound_step hsound hstep, htold_new⟩ hleaves hlater
  rw [hfp] at htold
  exact fun haccepts ↦ hother ((accepts_iff_of_fingerprint htold cert).mp haccepts)

/-! ## Two registrations of a process -/

open CertificateManager (sampleTools sampleEnv)

def registerTwice : List (DeploymentInput (List UInt8) (List UInt8)) :=
  [.createNode, .launch 1, .connect 0 "edge", .next 0 (sampleEnv 0 "AAAA"),
    .next 0 (sampleEnv 0 "AAAA"), .next 0 (sampleEnv 0 "AAAA"), .next 0 (sampleEnv 0 "AAAA"),
    .register 0 none, .connect 0 "edge", .next 1 (sampleEnv (days 3600) "AAAB"), .register 0 none]

/-- The second registration comes when the certificate has less than thirty days left. -/
def registerLate : List (DeploymentInput (List UInt8) (List UInt8)) :=
  [.createNode, .launch 1, .connect 0 "edge", .next 0 (sampleEnv 0 "AAAA"),
    .next 0 (sampleEnv 0 "AAAA"), .next 0 (sampleEnv 0 "AAAA"), .next 0 (sampleEnv 0 "AAAA"),
    .register 0 none, .connect 0 "edge", .next 1 (sampleEnv (days 3640) "AAAB"),
    .next 1 (sampleEnv (days 3640) "AAAB"), .next 1 (sampleEnv (days 3640) "AAAB")]

theorem apart_registerTwice :
    Within (step sampleTools) (Apart sampleTools) start registerTwice := by
  refine .cons trivial rfl (.cons trivial rfl (.cons trivial rfl (.cons ?_ rfl (.cons ?_ rfl
    (.cons ?_ rfl (.cons ?_ rfl (.cons trivial rfl (.cons trivial rfl (.cons ?_ rfl
      (.cons trivial rfl trivial))))))))))
  · rintro call hcall -
    obtain rfl := Option.some.inj hcall
    refine ⟨?_, .inr ?_⟩
    · rintro ⟨call, hcall, -, hmakes⟩
      obtain rfl := List.mem_singleton.mp hcall
      rcases hmakes with h | ⟨c, h⟩ | ⟨c, now, id, h⟩ <;> cases h
    · rintro ⟨a, ha, -, fp, ⟨cert, key, h, -⟩ | ⟨-, j, call, now, d, -, hcall, h, -⟩⟩
      · obtain rfl := List.mem_singleton.mp ha
        cases h
      · obtain rfl := List.mem_singleton.mp (List.mem_of_getElem? hcall)
        cases h
  · rintro call hcall hcheck
    obtain rfl := Option.some.inj hcall
    cases hcheck
  · rintro call hcall hcheck
    obtain rfl := Option.some.inj hcall
    cases hcheck
  · rintro call hcall hcheck
    obtain rfl := Option.some.inj hcall
    cases hcheck
  · rintro call hcall -
    obtain rfl := Option.some.inj hcall
    refine ⟨?_, .inl ⟨_, rfl, by decide⟩⟩
    rintro ⟨call, hcall, -, hmakes⟩
    rcases List.mem_pair.mp hcall with rfl | rfl <;>
      rcases hmakes with h | ⟨c, h⟩ | ⟨c, now, id, h⟩ <;> cases h

theorem pinned_certificates_registerTwice :
    ∃ s, run (step sampleTools) start registerTwice = some s ∧
      ∀ t : ConnectionTask,
        t.certFingerprints = (s.manager.db.getNodeFingerprint 1).toList → ∀ cert',
          Accepts sampleTools t cert' ↔
            sampleTools.fingerprint cert' =
              sampleTools.fingerprint [0, 0, 0] :=
  ⟨_, rfl, fun t ht cert' ↦ pinned_certificates sampleTools
    apart_registerTwice rfl (List.mem_singleton_self _) rfl (by decide) t ht cert'⟩

/-- What the second registration has made. -/
def renewed : GeneratedCertificate :=
  ⟨CertificateManager.pemText "CERTIFICATE" "AAAB", CertificateManager.pemText "PRIVATE KEY" "AAAA",
    sampleTools.fingerprint [0, 0, 1]⟩

/-- The process reads the new certificate, and registers once more. -/
def registerAgain : List (DeploymentInput (List UInt8) (List UInt8)) :=
  [.register 0 none, .connect 0 "edge", .next 2 (sampleEnv (days 3640) "AAAB"), .register 0 none]

theorem refused_after_renewal_registerLate :
    ∃ s t u, run (step sampleTools) start registerLate = some s ∧
      s.step sampleTools (.next 1 (sampleEnv (days 3640) "AAAB")) = some t ∧
      run (step sampleTools) t registerAgain = some u ∧
      RunsWith 0 1 [0, 0, 0] [0, 0, 0] true u ∧
      ∀ task : ConnectionTask,
        task.certFingerprints = (u.manager.db.getNodeFingerprint 1).toList →
          ¬ Accepts sampleTools task [0, 0, 0] := by
  refine ⟨_, _, _, rfl, rfl, rfl, ?_⟩
  have hrefused := @refused_after_renewal _ _ sampleTools registerLate registerAgain _ _ _ rfl 1
    (sampleEnv (days 3640) "AAAB") rfl _ _ rfl
    (.inr (.inr ⟨renewed, days 3640, some 1, rfl⟩)) rfl (days 3640) (renewed.data (days 3640)) rfl
    0 [0, 0, 0] [0, 0, 0] true ⟨_, rfl, rfl, rfl⟩ (by decide) rfl (by simp [registerAgain])
  refine ⟨hrefused.1, hrefused.2 ?_⟩
  refine .cons trivial rfl (.cons trivial rfl (.cons ?_ rfl (.cons trivial rfl trivial)))
  rintro call hcall -
  obtain rfl := Option.some.inj hcall
  rintro (h | ⟨c, h⟩ | ⟨c, now, id, h⟩) <;> cases h

end Deployment

end Oxiproxy.Client
