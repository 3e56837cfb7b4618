import Oxiproxy.Controller.DirectSync

/-!
# The direct routes of a node converge

The messages about a proxy are numbered as they are read from the database, and the
newest one decides.  No message that counts is lost: a stream that ends is followed by
a registration that reads a snapshot.  So a node that has executed everything, and
nothing outdated after something newer, runs what the newest messages ask for.
-/

namespace Oxiproxy.Controller

open Transition NumberedLog
open Oxiproxy.Node (ControllerCommand)

namespace DirectSync

variable (parse : UrlParser) (render : Url → String) (nodeId : ℤ)

/-! ## The node follows the messages -/

/-- The node runs what the newest of the executed messages asks for. -/
structure Replica (parse : UrlParser) (log : List ControllerCommand) (executed : List ℕ)
    (m : Node.ProxyListenerManager) : Prop where
  lt : ∀ n ∈ executed, n < log.length
  routes : ∀ id,
    (∃ n cmd, Newest ControllerCommand.about log {n | n ∈ executed} id n ∧ log[n]? = some cmd ∧
      Node.Runs parse m id (cmd.told id)) ∨
    (∀ n ∈ executed, ¬ Concerns ControllerCommand.about log n id) ∧ Node.Runs parse m id none

section Replica

variable {parse} {log : List ControllerCommand} {executed : List ℕ}
  {m m' : Node.ProxyListenerManager} {cmd : ControllerCommand} {n : ℕ}

theorem replica_new (log : List ControllerCommand) : Replica parse log [] .new :=
  ⟨fun _ h ↦ absurd h List.not_mem_nil, fun id ↦ .inr ⟨fun _ h ↦ absurd h List.not_mem_nil,
    fun e ↦ Node.ProxyListenerManager.not_owns_new "" id e⟩⟩

theorem Replica.congr (h : Replica parse log executed m)
    (howns : ∀ id e, Node.Owns m' "" id e ↔ Node.Owns m "" id e) :
    Replica parse log executed m' := by
  refine ⟨h.lt, fun id ↦ ?_⟩
  rcases h.routes id with ⟨n, cmd, hnewest, hcmd, hruns⟩ | ⟨hnone, hruns⟩
  · exact .inl ⟨n, cmd, hnewest, hcmd, hruns.congr (howns id)⟩
  · exact .inr ⟨hnone, hruns.congr (howns id)⟩

theorem Replica.append (h : Replica parse log executed m) (cmd : ControllerCommand) :
    Replica parse (log ++ [cmd]) executed m := by
  refine ⟨fun n hn ↦ (h.lt n hn).trans (by simp), fun id ↦ ?_⟩
  rcases h.routes id with ⟨n, cmd', hnewest, hcmd, hruns⟩ | ⟨hnone, hruns⟩
  · refine .inl ⟨n, cmd', (newest_append_of_lt h.lt).mpr hnewest, ?_, hruns⟩
    rw [List.getElem?_append_left (h.lt n hnewest.mem)]
    exact hcmd
  · refine .inr ⟨fun n hn hconcerns ↦ ?_, hruns⟩
    rcases concerns_append.mp hconcerns with hconcerns | ⟨rfl, -⟩
    · exact hnone n hn hconcerns
    · exact absurd (h.lt _ hn) (lt_irrefl _)

/-- A message that is executed says nothing else than the executed messages that
were read after it. -/
theorem Replica.execute (h : Replica parse log executed m) (hcmd : log[n]? = some cmd)
    (hdirect : cmd.direct = true) (hnodup : cmd.proxyIds.Nodup) (haccepted : cmd.Accepted parse m)
    (horder : ∀ j ∈ executed, n < j → ∀ cmd' ∈ log[j]?, ∀ id, cmd.about id = true →
      cmd'.about id = true → cmd.told id = cmd'.told id) :
    Replica parse log (executed ++ [n]) (cmd.execute parse m) := by
  have hlt : ∀ j ∈ executed ++ [n], j < log.length := by
    intro j hj
    rcases List.mem_append.mp hj with hj | hj
    · exact h.lt j hj
    · rw [List.mem_singleton.mp hj]
      exact (List.getElem?_eq_some_iff.mp hcmd).1
  refine ⟨hlt, fun id ↦ ?_⟩
  cases habout : cmd.about id with
  | false =>
      have howns := Node.ControllerCommand.owns_execute_of_not hdirect haccepted habout
      have hconcerns : ¬ Concerns ControllerCommand.about log n id := by
        rw [concerns_iff_of_getElem? hcmd, habout]
        simp
      rcases h.routes id with ⟨j, cmd', hnewest, hcmd', hruns⟩ | ⟨hnone, hruns⟩
      · refine .inl ⟨j, cmd', ⟨List.mem_append_left _ hnewest.mem, hnewest.concerns, ?_⟩, hcmd',
          hruns.congr howns⟩
        intro i hi hc
        rcases List.mem_append.mp hi with hi | hi
        · exact hnewest.le i hi hc
        · exact absurd (List.mem_singleton.mp hi ▸ hc) hconcerns
      · refine .inr ⟨fun j hj hc ↦ ?_, hruns.congr howns⟩
        rcases List.mem_append.mp hj with hj | hj
        · exact hnone j hj hc
        · exact hconcerns (List.mem_singleton.mp hj ▸ hc)
  | true =>
      have hruns := Node.ControllerCommand.runs_execute hdirect hnodup haccepted habout
      have hconcerns := (concerns_iff_of_getElem? hcmd).mpr habout
      have hmem : n ∈ executed ++ [n] := List.mem_append_right _ List.mem_cons_self
      left
      by_cases hlater : ∃ j cmd', Newest ControllerCommand.about log {n | n ∈ executed} id j ∧
          log[j]? = some cmd' ∧ n < j
      · -- an executed message was read later; it says the same
        obtain ⟨j, cmd', hnewest, hcmd', hnj⟩ := hlater
        have habout' := (concerns_iff_of_getElem? hcmd').mp hnewest.concerns
        have htold := horder j hnewest.mem hnj cmd' hcmd' id habout habout'
        refine ⟨j, cmd', ⟨List.mem_append_left _ hnewest.mem, hnewest.concerns, ?_⟩, hcmd',
          htold ▸ hruns⟩
        intro i hi hc
        rcases List.mem_append.mp hi with hi | hi
        · exact hnewest.le i hi hc
        · exact (List.mem_singleton.mp hi).le.trans hnj.le
      · refine ⟨n, cmd, ⟨hmem, hconcerns, fun i hi hc ↦ ?_⟩, hcmd, hruns⟩
        rcases List.mem_append.mp hi with hi | hi
        · rcases h.routes id with ⟨j, cmd', hnewest, hcmd', -⟩ | ⟨hnone, -⟩
          · have hle : j ≤ n := not_lt.mp fun hnj ↦ hlater ⟨j, cmd', hnewest, hcmd', hnj⟩
            exact (hnewest.le i hi hc).trans hle
          · exact absurd hc (hnone i hi)
        · exact (List.mem_singleton.mp hi).le

end Replica

/-! ## The messages follow the database -/

/-- The newest message about a proxy is a stop, or says what the database says unless
the proxy has changed. -/
structure Truthful (nodeId : ℤ) (db : Db) (log : List ControllerCommand)
    (changed stopped : List ℤ) : Prop where
  messages : ∀ cmd ∈ log, cmd.direct = true ∧ cmd.proxyIds.Nodup
  told : ∀ id n cmd, Newest ControllerCommand.about log Set.univ id n → log[n]? = some cmd →
    (id ∈ stopped → cmd.told id = none) ∧
      (id ∉ stopped → id ∉ changed → cmd.told id = db.directRoute nodeId id)

section Truthful

variable {nodeId} {s : DirectSync} {cmd : ControllerCommand}

theorem directRoute_of_not_mem_changedIds {db db' : Db} {id : ℤ}
    (h : id ∉ changedIds nodeId db db') : db'.directRoute nodeId id = db.directRoute nodeId id := by
  by_contra hne
  have hids : id ∉ (db.proxies.rows ++ db'.proxies.rows).map (·.id) := by
    intro hmem
    exact h (List.mem_filter.mpr ⟨hmem, decide_eq_true (Ne.symm hne)⟩)
  rw [List.map_append, List.mem_append, not_or] at hids
  exact hne (directRoute_congr ((Table.find_eq_none.mpr hids.2).trans
    (Table.find_eq_none.mpr hids.1).symm))

theorem Truthful.setDb (h : Truthful nodeId s.db s.log s.changed s.stopped) (db : Db) :
    Truthful nodeId (s.setDb nodeId db).db (s.setDb nodeId db).log (s.setDb nodeId db).changed
      (s.setDb nodeId db).stopped := by
  refine ⟨h.messages, fun id n cmd hnewest hcmd ↦ ?_⟩
  obtain ⟨hstopped, htold⟩ := h.told id n cmd hnewest hcmd
  refine ⟨hstopped, fun hnot hchanged ↦ ?_⟩
  rw [DirectSync.setDb, List.mem_append, not_or] at hchanged
  exact (htold hnot hchanged.1).trans (directRoute_of_not_mem_changedIds hchanged.2).symm

theorem mem_stopped_read {id : ℤ} :
    id ∈ (s.read cmd).stopped ↔ if cmd.about id then cmd.isStop = true else id ∈ s.stopped := by
  unfold DirectSync.read
  cases cmd with
  | stopProxy clientId proxyId =>
      by_cases hid : proxyId = id
      · simp [ControllerCommand.isStop, ControllerCommand.proxyIds, ControllerCommand.about, hid]
      · simp [ControllerCommand.isStop, ControllerCommand.proxyIds, ControllerCommand.about, hid,
          Ne.symm hid]
  | _ => simp [ControllerCommand.isStop, and_comm]

theorem mem_changed_read {id : ℤ} :
    id ∈ (s.read cmd).changed ↔ id ∈ s.changed ∧ (cmd.isStop = true ∨ cmd.about id = false) := by
  unfold DirectSync.read
  cases cmd.isStop <;> simp

theorem Truthful.read (h : Truthful nodeId s.db s.log s.changed s.stopped)
    (hreads : Reads nodeId s.db cmd) :
    Truthful nodeId (s.read cmd).db (s.read cmd).log (s.read cmd).changed (s.read cmd).stopped := by
  refine ⟨fun cmd' hcmd' ↦ ?_, fun id n cmd' hnewest hcmd' ↦ ?_⟩
  · rcases List.mem_append.mp hcmd' with hcmd' | hcmd'
    · exact h.messages cmd' hcmd'
    · rw [List.mem_singleton.mp hcmd']
      exact ⟨hreads.direct, hreads.nodup⟩
  · rw [mem_stopped_read, mem_changed_read]
    cases habout : cmd.about id with
    | true =>
        obtain rfl := (newest_append_of_about habout).mp hnewest
        obtain rfl : cmd = cmd' := Option.some.inj (List.getElem?_concat_length.symm.trans hcmd')
        rw [hreads.told id habout]
        cases cmd.isStop with
        | true => exact ⟨fun _ ↦ rfl, fun hnot ↦ absurd rfl hnot⟩
        | false => exact ⟨fun hstop ↦ (by cases hstop), fun _ _ ↦ rfl⟩
    | false =>
        have hold := (newest_append_of_not habout).mp hnewest
        have hcmd : s.log[n]? = some cmd' :=
          (List.getElem?_append_left hold.concerns.lt).symm.trans hcmd'
        obtain ⟨hstopped, htold⟩ := h.told id n cmd' hold hcmd
        exact ⟨hstopped, fun hnot hchanged ↦ htold hnot fun hmem ↦ hchanged ⟨hmem, .inr rfl⟩⟩

end Truthful

/-! ## No message that counts is lost -/

/-- No stream is open, or the snapshot of a registration has yet to be read. -/
def Unsynced (s : DirectSync) : Prop := ¬ s.Online ∨ .query ∈ s.registrations

/-- The message is on its way to the registered stream, or from it to the node. -/
def InFlight (s : DirectSync) (n : ℕ) : Prop :=
  (∃ stream ∈ s.stream, n ∈ stream.queue) ∨
    (∃ h ∈ s.handlers, h.stage = .lookup n ∨ ∃ k, h.stage = .send n k ∧ s.current = some k) ∨
      .send n ∈ s.registrations

def Covered (s : DirectSync) (n : ℕ) : Prop := n ∈ s.executed ∨ s.Unsynced ∨ s.InFlight n

/-- The newest message about each proxy has been executed or is in flight, unless a
snapshot that is yet to be read will take its place. -/
structure Supplied (s : DirectSync) : Prop where
  covered : ∀ id n, Newest ControllerCommand.about s.log Set.univ id n → s.Covered n
  synced : s.Unsynced ∨ ∀ id, ∃ n, Concerns ControllerCommand.about s.log n id

/-- A step that brings no stream and answers no query. -/
structure Keeps (s t : DirectSync) : Prop where
  executed : ∀ n ∈ s.executed, n ∈ t.executed
  online : t.Online → s.Online
  query : .query ∈ s.registrations → .query ∈ t.registrations
  inFlight : ∀ n, s.InFlight n → t.Covered n

section Supplied

variable {parse render nodeId} {s s' t : DirectSync} {n k : ℕ} {ok : Bool}
  {cmd : ControllerCommand}

theorem Keeps.unsynced (h : Keeps s t) : s.Unsynced → t.Unsynced :=
  Or.imp (fun hoff honline ↦ hoff (h.online honline)) h.query

theorem Keeps.covered (h : Keeps s t) : s.Covered n → t.Covered n := by
  rintro (hexecuted | hunsynced | hflight)
  · exact .inl (h.executed n hexecuted)
  · exact .inr (.inl (h.unsynced hunsynced))
  · exact h.inFlight n hflight

theorem Supplied.of_keeps (h : Supplied s) (hlog : t.log = s.log) (hkeeps : Keeps s t) :
    Supplied t := by
  refine ⟨fun id n hnewest ↦ hkeeps.covered (h.covered id n (hlog ▸ hnewest)), ?_⟩
  rw [hlog]
  exact h.synced.imp_left hkeeps.unsynced

theorem supplied_of_unsynced (h : t.Unsynced) : Supplied t := ⟨fun _ _ _ ↦ .inr (.inl h), .inl h⟩

/-- A message that is read is in flight; the others about its proxies do not count
any more. -/
theorem Supplied.read (h : Supplied s) (hlog : t.log = s.log ++ [cmd]) (hkeeps : Keeps s t)
    (hnew : t.Covered s.log.length) : Supplied t := by
  refine ⟨fun id n hnewest ↦ ?_, ?_⟩
  · rw [hlog] at hnewest
    cases habout : cmd.about id with
    | true =>
        obtain rfl := (newest_append_of_about habout).mp hnewest
        exact hnew
    | false => exact hkeeps.covered (h.covered id n ((newest_append_of_not habout).mp hnewest))
  · rw [hlog]
    refine h.synced.imp hkeeps.unsynced fun hall id ↦ ?_
    obtain ⟨n, hn⟩ := hall id
    exact ⟨n, concerns_append.mpr (.inl hn)⟩

/-- A snapshot that is read is about all proxies. -/
theorem supplied_snapshot (hlog : t.log = s.log ++ [s.db.snapshot nodeId])
    (hnew : t.Covered s.log.length) : Supplied t := by
  refine ⟨fun id n hnewest ↦ ?_, .inr fun id ↦ ⟨s.log.length, ?_⟩⟩
  · rw [hlog] at hnewest
    obtain rfl := (newest_append_of_about rfl).mp hnewest
    exact hnew
  · rw [hlog]
    exact concerns_append.mpr (.inr ⟨rfl, rfl⟩)

theorem mem_set_of_mem {β : Type*} {l : List β} {j : ℕ} {a b : β} (c : β)
    (hj : l[j]? = some b) (ha : a ∈ l) : a = b ∨ a ∈ l.set j c := by
  obtain ⟨i, hi⟩ := List.getElem?_of_mem ha
  by_cases hij : i = j
  · subst hij
    exact .inl (Option.some.inj (hi.symm.trans hj))
  · have hset : (l.set j c)[i]? = some a := by rwa [List.getElem?_set_ne (Ne.symm hij)]
    exact .inr (List.mem_of_getElem? hset)

/-- Only the registered stream counts. -/
theorem stream_setSession {old : NodeStream} (hold : s.sessions[k]? = some old) (new : NodeStream) :
    ({ s with sessions := s.sessions.set k new } : DirectSync).stream =
      if s.current = some k then some new else s.stream := by
  have hlt := (List.getElem?_eq_some_iff.mp hold).1
  unfold DirectSync.stream
  cases hcurrent : s.current with
  | none => rfl
  | some c =>
      by_cases hc : c = k
      · subst hc
        simp [hlt]
      · simp [hc, List.getElem?_set_ne (Ne.symm hc)]

theorem post_eq_some (h : s.post n k = some s') :
    ∃ stream, s.sessions[k]? = some stream ∧ stream.isOpen = true ∧
      s' = { s with
        sessions := s.sessions.set k { stream with queue := stream.queue ++ [n] } } := by
  obtain ⟨stream, hstream, h⟩ := Option.bind_eq_some_iff.mp h
  split_ifs at h with hopen
  cases h
  exact ⟨stream, hstream, hopen, rfl⟩

theorem not_online_of_current (h : s.current = none) : ¬ s.Online := by
  rintro ⟨stream, hstream, -⟩
  rw [DirectSync.stream, h] at hstream
  cases hstream

theorem not_online_of_post (h : s.post n k = none) (hcurrent : s.current = some k) :
    ¬ s.Online := by
  rintro ⟨stream, hstream, hopen⟩
  rw [DirectSync.stream, hcurrent] at hstream
  rw [DirectSync.post, show s.sessions[k]? = some stream from hstream] at h
  simp [hopen] at h

/-- A message that is posted joins a queue; nothing else is moved. -/
theorem keeps_post (h : s.post n k = some s') : Keeps s s' := by
  obtain ⟨stream, hold, hopen, rfl⟩ := post_eq_some h
  have hstream := stream_setSession hold { stream with queue := stream.queue ++ [n] }
  refine ⟨fun _ h ↦ h, ?_, fun h ↦ h, fun j hj ↦ .inr (.inr ?_)⟩
  · rintro ⟨new, hnew, hisOpen⟩
    rw [hstream] at hnew
    split_ifs at hnew with hcurrent
    · refine ⟨stream, ?_, hopen⟩
      rw [DirectSync.stream, hcurrent]
      exact hold
    · exact ⟨new, hnew, hisOpen⟩
  · rcases hj with ⟨old, hmem, hj⟩ | hj
    · left
      rw [hstream]
      split_ifs with hcurrent
      · rw [DirectSync.stream, hcurrent] at hmem
        obtain rfl := Option.some.inj (hold.symm.trans hmem)
        exact ⟨_, rfl, List.mem_append_left _ hj⟩
      · exact ⟨old, hmem, hj⟩
    · exact .inr hj

theorem queued_post (h : s.post n k = some s') (hcurrent : s.current = some k) :
    ∃ stream ∈ s'.stream, n ∈ stream.queue := by
  obtain ⟨stream, hold, -, rfl⟩ := post_eq_some h
  rw [stream_setSession hold, if_pos hcurrent]
  exact ⟨_, rfl, List.mem_append_right _ List.mem_cons_self⟩

/-- A handler takes a step that leaves its message covered. -/
theorem keeps_setHandler {j : ℕ} {h : Handler} (hj : s.handlers[j]? = some h) (h' : Handler)
    (hstage : ∀ n, (h.stage = .lookup n ∨ ∃ k, h.stage = .send n k ∧ s.current = some k) →
      ({ s with handlers := s.handlers.set j h' } : DirectSync).Covered n) :
    Keeps s { s with handlers := s.handlers.set j h' } := by
  refine ⟨fun _ h ↦ h, fun h ↦ h, fun h ↦ h, fun n hn ↦ ?_⟩
  rcases hn with hqueued | ⟨g, hg, hgstage⟩ | hregistering
  · exact .inr (.inr (.inl hqueued))
  · rcases mem_set_of_mem (c := h') hj hg with rfl | hmem
    · exact hstage n hgstage
    · exact .inr (.inr (.inr (.inl ⟨g, hmem, hgstage⟩)))
  · exact .inr (.inr (.inr (.inr hregistering)))

theorem mem_setHandler {j : ℕ} {h h' : Handler} (hj : s.handlers[j]? = some h) :
    h' ∈ s.handlers.set j h' := List.mem_set (List.getElem?_eq_some_iff.mp hj).1 _

theorem Supplied.call (hs : Supplied s) {j : ℕ} {h h' : Handler} (hj : s.handlers[j]? = some h)
    (heffect : CallEffect nodeId s h.stage s' h'.stage) :
    Supplied { s' with handlers := s'.handlers.set j h' } := by
  generalize hstage : h.stage = stage at heffect
  generalize hstage' : h'.stage = stage' at heffect
  -- in the other stages the handler does not hold a message
  have hidle (hready : ∀ n, h.stage ≠ .lookup n ∧ ∀ k, h.stage ≠ .send n k) :
      Keeps s { s with handlers := s.handlers.set j h' } := by
    refine keeps_setHandler hj h' ?_
    rintro n (hn | ⟨k, hn, -⟩)
    · exact absurd hn (hready n).1
    · exact absurd hn ((hready n).2 k)
  cases heffect with
  | write db =>
      have hdb : Supplied (s.setDb nodeId db) := ⟨hs.covered, hs.synced⟩
      have hkeeps := hidle (by simp [hstage])
      exact hdb.of_keeps rfl ⟨hkeeps.executed, hkeeps.online, hkeeps.query, hkeeps.inFlight⟩
  | skip | answered => exact hs.of_keeps rfl (hidle (by simp [hstage]))
  | read hreads =>
      refine hs.read rfl ?_ (.inr (.inr (.inr (.inl ⟨h', mem_setHandler hj, .inl hstage'⟩))))
      have hkeeps := hidle (by simp [hstage])
      exact ⟨hkeeps.executed, hkeeps.online, hkeeps.query, hkeeps.inFlight⟩
  | offline hcurrent =>
      exact supplied_of_unsynced (.inl (not_online_of_current hcurrent))
  | @lookup n k hcurrent =>
      refine hs.of_keeps rfl (keeps_setHandler hj h' fun j hn ↦ .inr (.inr (.inr (.inl
        ⟨h', mem_setHandler hj, .inr ⟨k, ?_, hcurrent⟩⟩))))
      simp only [hstage, CommandStage.lookup.injEq, reduceCtorEq, false_and, exists_false,
        or_false] at hn
      rw [hstage', hn]
  | @sent n k s' hpost =>
      obtain ⟨stream, -, -, hs'⟩ := post_eq_some hpost
      have hsame : s'.handlers = s.handlers ∧ s'.current = s.current ∧ s'.log = s.log := by
        rw [hs']
        exact ⟨rfl, rfl, rfl⟩
      refine (hs.of_keeps hsame.2.2 (keeps_post hpost)).of_keeps rfl
        (keeps_setHandler (hsame.1 ▸ hj) h' fun j hn ↦ ?_)
      simp only [hstage, reduceCtorEq, CommandStage.send.injEq, false_or] at hn
      obtain ⟨k', ⟨rfl, rfl⟩, hcurrent⟩ := hn
      have hqueued := queued_post hpost (hsame.2.1 ▸ hcurrent)
      exact .inr (.inr (.inl hqueued))
  | @unsent n k hpost =>
      refine hs.of_keeps rfl (keeps_setHandler hj h' fun j hn ↦ .inr (.inl (.inl ?_)))
      simp only [hstage, reduceCtorEq, CommandStage.send.injEq, false_or] at hn
      obtain ⟨k', ⟨rfl, rfl⟩, hcurrent⟩ := hn
      exact fun honline ↦ not_online_of_post hpost hcurrent honline

theorem keeps_setRegistration {j : ℕ} {r : Registration} (hj : s.registrations[j]? = some (.send n))
    (hn : ({ s with registrations := s.registrations.set j r } : DirectSync).Covered n) :
    Keeps s { s with registrations := s.registrations.set j r } := by
  have hset (r' : Registration) (hr' : r' ∈ s.registrations) (hne : r' ≠ .send n) :
      r' ∈ s.registrations.set j r := (mem_set_of_mem r hj hr').resolve_left hne
  refine ⟨fun _ h ↦ h, fun h ↦ h, fun h ↦ hset _ h nofun, fun m hm ↦ ?_⟩
  rcases hm with hqueued | hhandler | hregistering
  · exact .inr (.inr (.inl hqueued))
  · exact .inr (.inr (.inr (.inl hhandler)))
  · by_cases hmn : m = n
    · exact hmn ▸ hn
    · have hmem := hset _ hregistering fun heq ↦ hmn (Registration.send.inj heq)
      exact .inr (.inr (.inr (.inr hmem)))

theorem Supplied.registration (hs : Supplied s) {j : ℕ} {r r' : Registration}
    (hj : s.registrations[j]? = some r) (hok : r = .query → ok = true)
    (hstep : s.registerStep nodeId ok r = some (s', r')) :
    Supplied { s' with registrations := s'.registrations.set j r' } := by
  have hlt := (List.getElem?_eq_some_iff.mp hj).1
  cases r with
  | query =>
      obtain rfl := hok rfl
      cases hstep
      exact supplied_snapshot rfl (.inr (.inr (.inr (.inr (List.mem_set hlt _)))))
  | done => cases hstep
  | send n =>
      cases hstep
      cases hcurrent : s.current with
      | none => exact supplied_of_unsynced (.inl (not_online_of_current hcurrent))
      | some k =>
          cases hpost : s.post n k with
          | none =>
              simp only [Option.bind_some, hpost, Option.getD_none]
              have hoff := not_online_of_post hpost hcurrent
              exact supplied_of_unsynced (.inl hoff)
          | some s' =>
              simp only [Option.bind_some, hpost, Option.getD_some]
              obtain ⟨stream, -, -, hs'⟩ := post_eq_some hpost
              have hsame : s'.registrations = s.registrations ∧ s'.log = s.log := by
                rw [hs']
                exact ⟨rfl, rfl⟩
              have hqueued := queued_post hpost hcurrent
              exact (hs.of_keeps hsame.2 (keeps_post hpost)).of_keeps rfl
                (keeps_setRegistration (hsame.1 ▸ hj) (.inr (.inr (.inl hqueued))))

/-- The end of another stream than the registered one does not matter. -/
theorem Supplied.close (hs : Supplied s) {old : NodeStream} (hold : s.sessions[k]? = some old)
    (queue : List ℕ) :
    Supplied { s with sessions := s.sessions.set k ⟨queue, false⟩ } := by
  have hstream := stream_setSession hold ⟨queue, false⟩
  by_cases hcurrent : s.current = some k
  · refine supplied_of_unsynced (.inl ?_)
    rintro ⟨stream, hmem, hopen⟩
    rw [hstream, if_pos hcurrent] at hmem
    cases hmem
    cases hopen
  · rw [if_neg hcurrent] at hstream
    refine hs.of_keeps rfl ⟨fun _ h ↦ h, fun h ↦ ?_, fun h ↦ h, fun n hn ↦ .inr (.inr ?_)⟩
    · rwa [DirectSync.Online, hstream] at h
    · rwa [InFlight, hstream]

theorem Supplied.execute (hs : Supplied s) {queue : List ℕ} {isOpen : Bool}
    (hold : s.sessions[k]? = some ⟨n :: queue, isOpen⟩) (manager : Node.ProxyListenerManager)
    (answers : List ℕ) :
    Supplied { s with
      sessions := s.sessions.set k ⟨queue, isOpen⟩
      manager
      executed := s.executed ++ [n]
      answers } := by
  have hstream := stream_setSession hold ⟨queue, isOpen⟩
  refine hs.of_keeps rfl ⟨fun _ h ↦ List.mem_append_left _ h, fun h ↦ ?_, fun h ↦ h, fun m hm ↦ ?_⟩
  · obtain ⟨stream, hmem, hopen⟩ := h
    replace hmem := hstream.symm.trans hmem
    split_ifs at hmem with hcurrent
    · cases hmem
      refine ⟨⟨n :: queue, isOpen⟩, ?_, hopen⟩
      rw [DirectSync.stream, hcurrent]
      exact hold
    · exact ⟨stream, hmem, hopen⟩
  · rcases hm with ⟨stream, hmem, hm⟩ | hm
    · by_cases hcurrent : s.current = some k
      · rw [DirectSync.stream, hcurrent] at hmem
        obtain rfl := Option.some.inj (hold.symm.trans hmem)
        rcases List.mem_cons.mp hm with rfl | hm
        · exact .inl (List.mem_append_right _ List.mem_cons_self)
        · refine .inr (.inr (.inl ⟨⟨queue, isOpen⟩, ?_, hm⟩))
          exact hstream.trans (if_pos hcurrent)
      · refine .inr (.inr (.inl ⟨stream, ?_, hm⟩))
        exact (hstream.trans (if_neg hcurrent)).trans hmem
    · exact .inr (.inr (.inr hm))

end Supplied

/-! ## Runs -/

/-- Every route that the node is told to install is installed, and no registration
fails to read its snapshot. -/
def Installs (parse : UrlParser) (s : DirectSync) : SyncInput → Prop
  | .execute k => ∀ stream ∈ s.sessions[k]?, ∀ n ∈ stream.queue.head?, ∀ cmd ∈ s.log[n]?,
      cmd.Accepted parse s.manager
  | .registration j ok => s.registrations[j]? = some .query → ok = true
  | _ => True

/-- A message that is executed says nothing else about a proxy than the executed
messages that were read after it. -/
def InOrder (s : DirectSync) : SyncInput → Prop
  | .execute k => ∀ stream ∈ s.sessions[k]?, ∀ n ∈ stream.queue.head?, ∀ cmd ∈ s.log[n]?,
      ∀ j ∈ s.executed, n < j → ∀ cmd' ∈ s.log[j]?, ∀ id ∈ cmd.proxyIds ++ cmd'.proxyIds,
        cmd.about id = true → cmd'.about id = true → cmd.told id = cmd'.told id
  | _ => True

instance (s : DirectSync) : ∀ i, Decidable (s.Installs parse i)
  | .execute k => inferInstanceAs (Decidable (∀ stream ∈ s.sessions[k]?, ∀ n ∈ stream.queue.head?,
      ∀ cmd ∈ s.log[n]?, cmd.Accepted parse s.manager))
  | .registration j ok =>
      inferInstanceAs (Decidable (s.registrations[j]? = some .query → ok = true))
  | .database _ | .register | .unregister _ | .close _ _ | .request _ | .call _ _ | .client _
    | .restart => .isTrue trivial

instance (s : DirectSync) : ∀ i, Decidable (s.InOrder i)
  | .execute k => inferInstanceAs (Decidable (∀ stream ∈ s.sessions[k]?, ∀ n ∈ stream.queue.head?,
      ∀ cmd ∈ s.log[n]?, ∀ j ∈ s.executed, n < j → ∀ cmd' ∈ s.log[j]?,
        ∀ id ∈ cmd.proxyIds ++ cmd'.proxyIds, cmd.about id = true → cmd'.about id = true →
          cmd.told id = cmd'.told id))
  | .database _ | .register | .registration _ _ | .unregister _ | .close _ _ | .request _
    | .call _ _ | .client _ | .restart => .isTrue trivial

/-- All handlers and registrations have come to their end, all messages have been
executed, and the node is connected. -/
structure Settled (s : DirectSync) : Prop where
  handlers : ∀ h ∈ s.handlers, h.finished = true
  registrations : ∀ r ∈ s.registrations, r = .done
  queues : ∀ stream ∈ s.sessions, stream.queue = []
  online : s.Online

/-- The last message read about each proxy is a start or a snapshot read since the
last change of its route, or a stop, and the proxy is not to be served. -/
structure Informed (nodeId : ℤ) (s : DirectSync) : Prop where
  changed : ∀ id ∈ s.changed, id ∈ s.stopped
  stopped : ∀ id ∈ s.stopped, s.db.directRoute nodeId id = none

/-- The direct routes of the node are those of its enabled direct proxies. -/
def Converged (parse : UrlParser) (nodeId : ℤ) (s : DirectSync) : Prop :=
  ∀ id, match s.db.direct nodeId id with
    | none => ∀ e, (id, e) ∉ Node.CommandLoop.directRoutes s.manager
    | some p => ∃ e, p.RunsAs parse e ∧
        ∀ e', (id, e') ∈ Node.CommandLoop.directRoutes s.manager ↔ e' = e

structure Inv (parse : UrlParser) (nodeId : ℤ) (s : DirectSync) : Prop where
  replica : Replica parse s.log s.executed s.manager
  supplied : Supplied s
  truthful : Truthful nodeId s.db s.log s.changed s.stopped

section Runs

variable {parse render nodeId} {s t : DirectSync} {i : SyncInput}

theorem told_eq_none {cmd : ControllerCommand} {id : ℤ} (h : id ∉ cmd.proxyIds) :
    cmd.told id = none := by
  cases cmd with
  | syncDirectProxies configs =>
      rw [ControllerCommand.told, Node.find?_eq_none_of_not_mem h, Option.map_none]
  | startProxy clientId proxyId config =>
      cases config with
      | none => rfl
      | some config => exact if_neg fun hid ↦ h (List.mem_singleton.mpr hid.symm)
  | _ => rfl

theorem inv_start (db : Db) : Inv parse nodeId (start db) where
  replica := replica_new []
  supplied := supplied_of_unsynced (.inl (not_online_of_current rfl))
  truthful := ⟨fun _ h ↦ absurd h List.not_mem_nil, fun _ _ _ _ h ↦ by cases h⟩

theorem CallEffect.replica {a b : CommandStage} (heffect : CallEffect nodeId s a t b)
    (h : Replica parse s.log s.executed s.manager) : Replica parse t.log t.executed t.manager := by
  cases heffect with
  | read hreads => exact h.append _
  | sent hpost =>
      obtain ⟨stream, -, -, rfl⟩ := post_eq_some hpost
      exact h
  | write | skip | offline | lookup | unsent | answered => exact h

theorem CallEffect.truthful {a b : CommandStage} (heffect : CallEffect nodeId s a t b)
    (h : Truthful nodeId s.db s.log s.changed s.stopped) :
    Truthful nodeId t.db t.log t.changed t.stopped := by
  cases heffect with
  | write db => exact h.setDb db
  | read hreads => exact h.read hreads
  | sent hpost =>
      obtain ⟨stream, -, -, rfl⟩ := post_eq_some hpost
      exact h
  | skip | offline | lookup | unsent | answered => exact h

/-- A registration reads the snapshot, or moves a message to a queue. -/
theorem registerStep_cases {ok : Bool} {r r' : Registration} {s' : DirectSync}
    (h : s.registerStep nodeId ok r = some (s', r')) :
    s' = s.read (s.db.snapshot nodeId) ∨ s' = s ∨ ∃ n k, s.post n k = some s' := by
  cases r with
  | query =>
      simp only [registerStep] at h
      split_ifs at h <;> cases h
      · exact .inl rfl
      · exact .inr (.inl rfl)
  | send n =>
      cases h
      cases hpost : s.current.bind (s.post n) with
      | none => exact .inr (.inl rfl)
      | some s' =>
          obtain ⟨k, -, hk⟩ := Option.bind_eq_some_iff.mp hpost
          exact .inr (.inr ⟨n, k, hk⟩)
  | done => cases h

theorem Inv.registration (h : Inv parse nodeId s) {j : ℕ} {ok : Bool}
    (hinstalls : s.Installs parse (.registration j ok))
    (hstep : s.step parse render nodeId (.registration j ok) = some t) : Inv parse nodeId t := by
  obtain ⟨r, hj, hstep⟩ := Option.bind_eq_some_iff.mp hstep
  obtain ⟨⟨s', r'⟩, hregister, rfl⟩ := Option.map_eq_some_iff.mp hstep
  have hsupplied := h.supplied.registration hj (fun hr ↦ hinstalls (hr ▸ hj)) hregister
  rcases registerStep_cases hregister with rfl | rfl | ⟨n, k, hpost⟩
  · exact ⟨h.replica.append _, hsupplied, h.truthful.read (reads_snapshot s.db)⟩
  · exact ⟨h.replica, hsupplied, h.truthful⟩
  · obtain ⟨stream, -, -, rfl⟩ := post_eq_some hpost
    exact ⟨h.replica, hsupplied, h.truthful⟩

theorem executeStep_eq_some {k : ℕ} (h : s.executeStep parse k = some t) :
    ∃ n queue isOpen cmd, s.sessions[k]? = some ⟨n :: queue, isOpen⟩ ∧ s.log[n]? = some cmd ∧
      t = { s with
        sessions := s.sessions.set k ⟨queue, isOpen⟩
        manager := cmd.execute parse s.manager
        executed := s.executed ++ [n]
        answers := if cmd.acknowledged parse s.manager then s.answers ++ [n] else s.answers } := by
  unfold executeStep at h
  split at h
  · next n queue isOpen hold =>
      obtain ⟨cmd, hcmd, rfl⟩ := Option.map_eq_some_iff.mp h
      exact ⟨n, queue, isOpen, cmd, hold, hcmd, rfl⟩
  · cases h

theorem Inv.execute (h : Inv parse nodeId s) {k : ℕ} (hinstalls : s.Installs parse (.execute k))
    (horder : s.InOrder (.execute k)) (hstep : s.executeStep parse k = some t) :
    Inv parse nodeId t := by
  obtain ⟨n, queue, isOpen, cmd, hold, hcmd, rfl⟩ := executeStep_eq_some hstep
  have haccepted := hinstalls _ hold n rfl cmd hcmd
  obtain ⟨hdirect, hnodup⟩ := h.truthful.messages cmd (List.mem_of_getElem? hcmd)
  refine ⟨h.replica.execute hcmd hdirect hnodup haccepted ?_, h.supplied.execute hold _ _,
    h.truthful⟩
  intro j hj hnj cmd' hcmd' id habout habout'
  by_cases hid : id ∈ cmd.proxyIds ++ cmd'.proxyIds
  · exact horder _ hold n rfl cmd hcmd j hj hnj cmd' hcmd' id hid habout habout'
  · -- two snapshots without the proxy
    rw [List.mem_append, not_or] at hid
    rw [told_eq_none hid.1, told_eq_none hid.2]

theorem Inv.step (h : Inv parse nodeId s) (hinstalls : s.Installs parse i) (horder : s.InOrder i)
    (hstep : s.step parse render nodeId i = some t) : Inv parse nodeId t := by
  cases i with
  | database db =>
      cases hstep
      exact ⟨h.replica, ⟨h.supplied.covered, h.supplied.synced⟩, h.truthful.setDb db⟩
  | register =>
      cases hstep
      exact ⟨h.replica, supplied_of_unsynced (.inr (List.mem_append_right _ List.mem_cons_self)),
        h.truthful⟩
  | registration j ok => exact h.registration hinstalls hstep
  | unregister k =>
      cases hstep
      by_cases hcurrent : s.current = some k
      · exact ⟨h.replica, supplied_of_unsynced (.inl (not_online_of_current (if_pos hcurrent))),
          h.truthful⟩
      · rw [if_neg hcurrent]
        exact h
  | close k arriving =>
      obtain ⟨stream, hold, rfl⟩ := Option.map_eq_some_iff.mp hstep
      exact ⟨h.replica, h.supplied.close hold _, h.truthful⟩
  | request r =>
      cases hstep
      have hkeeps : Keeps s { s with handlers := s.handlers ++ [r.handler parse render s.db] } := by
        refine ⟨fun _ h ↦ h, fun h ↦ h, fun h ↦ h, fun n hn ↦ .inr (.inr ?_)⟩
        refine hn.imp_right (Or.imp_left ?_)
        rintro ⟨handler, hmem, hstage⟩
        exact ⟨handler, List.mem_append_left _ hmem, hstage⟩
      exact ⟨h.replica, h.supplied.of_keeps rfl hkeeps, h.truthful⟩
  | call j o =>
      obtain ⟨handler, hj, hstep⟩ := Option.bind_eq_some_iff.mp hstep
      obtain ⟨⟨s', handler'⟩, hcall, rfl⟩ := Option.map_eq_some_iff.mp hstep
      have heffect := callStep_effect hcall
      exact ⟨heffect.replica h.replica, h.supplied.call hj heffect, heffect.truthful h.truthful⟩
  | execute k => exact h.execute hinstalls horder hstep
  | client call =>
      simp only [DirectSync.step] at hstep
      split_ifs at hstep with hclient
      cases hstep
      exact ⟨h.replica.congr (Node.ManagerCall.owns_apply_of_ofClient hclient),
        ⟨h.supplied.covered, h.supplied.synced⟩, h.truthful⟩
  | restart =>
      cases hstep
      refine ⟨replica_new _, supplied_of_unsynced (.inl ?_), h.truthful⟩
      rintro ⟨stream, hstream, hopen⟩
      obtain ⟨k, -, hk⟩ := Option.bind_eq_some_iff.mp hstream
      obtain ⟨old, -, rfl⟩ := List.mem_map.mp (List.mem_of_getElem? hk)
      cases hopen

/-- In a settled state the newest message about a proxy has been executed last. -/
theorem Inv.runs_newest (h : Inv parse nodeId s) (hsettled : s.Settled) (id : ℤ) :
    ∃ n cmd, Newest ControllerCommand.about s.log Set.univ id n ∧ s.log[n]? = some cmd ∧
      Node.Runs parse s.manager id (cmd.told id) := by
  have hsynced : ¬ s.Unsynced := by
    rintro (hoff | hquery)
    · exact hoff hsettled.online
    · cases hsettled.registrations _ hquery
  obtain ⟨n₀, hn₀⟩ := (h.supplied.synced.resolve_left hsynced) id
  obtain ⟨n, hnewest⟩ := exists_newest hn₀
  have hexecuted : n ∈ s.executed := by
    rcases h.supplied.covered id n hnewest with
      hexecuted | hunsynced | hqueued | hhandler | hregistering
    · exact hexecuted
    · exact absurd hunsynced hsynced
    · obtain ⟨stream, hstream, hmem⟩ := hqueued
      obtain ⟨k, -, hk⟩ := Option.bind_eq_some_iff.mp hstream
      rw [hsettled.queues stream (List.mem_of_getElem? hk)] at hmem
      cases hmem
    · obtain ⟨handler, hmem, hstage⟩ := hhandler
      have hready := Handler.ready_of_finished (hsettled.handlers handler hmem)
      rcases hstage with hstage | ⟨k, hstage, -⟩ <;> rw [hready] at hstage <;> cases hstage
    · cases hsettled.registrations _ hregistering
  rcases h.replica.routes id with ⟨j, cmd, hlast, hcmd, hruns⟩ | ⟨hnone, -⟩
  · have hjn : j = n := le_antisymm (hnewest.le j (Set.mem_univ j) hlast.concerns)
      (hlast.le n hexecuted hnewest.concerns)
    exact ⟨j, cmd, hjn ▸ hnewest, hcmd, hruns⟩
  · exact absurd hnewest.concerns (hnone n hexecuted)

/-- When every route that is asked for is installed, no outdated message is executed
after a newer one and, in the end, the last message read about each proxy is up to
date, the direct routes of the connected node are the enabled direct proxies. -/
theorem direct_routes_converge (parse : UrlParser) (render : Url → String) (nodeId : ℤ) (db : Db)
    (inputs : List SyncInput) (t : DirectSync)
    (horderly : Within (step parse render nodeId) (fun s i ↦ s.Installs parse i ∧ s.InOrder i)
      (start db) inputs)
    (hrun : run (step parse render nodeId) (start db) inputs = some t) (hsettled : t.Settled)
    (hinformed : t.Informed nodeId) : t.Converged parse nodeId := by
  have hinv : Inv parse nodeId t :=
    run_invariant (fun _ _ _ h hok hstep ↦ h.step hok.1 hok.2 hstep) (inv_start db) horderly hrun
  intro id
  obtain ⟨n, cmd, hnewest, hcmd, hruns⟩ := hinv.runs_newest hsettled id
  obtain ⟨hstopped, htold⟩ := hinv.truthful.told id n cmd hnewest hcmd
  have hroute : cmd.told id = t.db.directRoute nodeId id := by
    by_cases hstop : id ∈ t.stopped
    · rw [hstopped hstop, hinformed.stopped id hstop]
    · exact htold hstop fun hchanged ↦ hstop (hinformed.changed id hchanged)
  rw [hroute, Db.directRoute] at hruns
  cases hrow : t.db.direct nodeId id with
  | none =>
      rw [hrow] at hruns
      exact hruns
  | some p =>
      rw [hrow] at hruns
      obtain ⟨name, e, hdesc, howns⟩ := hruns
      exact ⟨e, ⟨name, hdesc⟩, howns⟩

end Runs

/-! ## A snapshot that is sent late -/

instance (s : DirectSync) : Decidable s.Online :=
  inferInstanceAs (Decidable (∃ stream ∈ s.stream, stream.isOpen = true))

instance (s : DirectSync) : Decidable s.Settled :=
  decidable_of_iff ((∀ h ∈ s.handlers, h.finished = true) ∧ (∀ r ∈ s.registrations, r = .done) ∧
      (∀ stream ∈ s.sessions, stream.queue = []) ∧ s.Online)
    ⟨fun ⟨h, r, q, o⟩ ↦ ⟨h, r, q, o⟩, fun h ↦ ⟨h.handlers, h.registrations, h.queues, h.online⟩⟩

instance (nodeId : ℤ) (s : DirectSync) : Decidable (s.Informed nodeId) :=
  decidable_of_iff ((∀ id ∈ s.changed, id ∈ s.stopped) ∧
      ∀ id ∈ s.stopped, s.db.directRoute nodeId id = none)
    ⟨fun ⟨c, t⟩ ↦ ⟨c, t⟩, fun h ↦ ⟨h.changed, h.stopped⟩⟩

def originUrl (_ : Url) : String := "http://origin.test/"

def siteStep : DirectSync → SyncInput → Option DirectSync :=
  step Node.CommandLoop.oneUrl originUrl 1

def request (change : ProxyChange) : SyncInput := .request ⟨calmEnv, ⟨1, "ann", true⟩, [], change⟩

/-- A direct proxy on port 80 of node 1. -/
def publish : SyncInput := request (.create {
  clientId := none
  upstreamUrl := "http://origin.test/"
  name := "site"
  proxyType := "http"
  domain := "a.example.com"
  localIp := "127.0.0.1"
  localPort := 0
  remotePort := 80
  nodeId := some 1 })

/-- The proxy moves to port 8080. -/
def move : SyncInput := request (.update 1 ⟨none, none, none, none, none, none, some 8080, none⟩)

/-- The next step of a handler; nothing fails. -/
def proceed (j : ℕ) : SyncInput := .call j ⟨calmEnv, none, .ok ()⟩

/-- The proxy is created while its node registers: the snapshot is read before the
row is inserted and sent after the start, or in time. -/
def publishDuringRegistration (late : Bool) : List SyncInput :=
  [.register, .registration 0 true, publish, proceed 0] ++
    (if late then [proceed 0, proceed 0, proceed 0, .registration 0 true]
      else [.registration 0 true, proceed 0, proceed 0, proceed 0]) ++
    if late then [.execute 0, proceed 0, .execute 0] else [.execute 0, .execute 0, proceed 0]

theorem not_owns_of_keys {m : Node.ProxyListenerManager} (hdomains : m.domains.keys = [])
    (hlisteners : m.listeners.keys = []) (c : String) (id : ℤ) (e : Node.Endpoint) :
    ¬ Node.Owns m c id e := by
  have hdomain : ∀ port, m.domains.lookup port = none := fun port ↦
    AList.lookup_eq_none.mpr (by rw [AList.mem_keys, hdomains]; exact List.not_mem_nil)
  have hlistener : m.listeners.lookup c = none :=
    AList.lookup_eq_none.mpr (by rw [AList.mem_keys, hlisteners]; exact List.not_mem_nil)
  cases e with
  | listener task => simp [Node.Owns, Node.ProxyListenerManager.clientListeners, hlistener]
  | route port domain kind route => simp [Node.Owns, Node.routeAt, hdomain]

/-- The old snapshot removes the route of the new proxy. -/
theorem not_converged_late :
    ∃ t ∈ run siteStep (start sharedNode.db) (publishDuringRegistration true),
      Within siteStep (Installs Node.CommandLoop.oneUrl) (start sharedNode.db)
        (publishDuringRegistration true) ∧
      t.Settled ∧ t.Informed 1 ∧ ¬ t.Converged Node.CommandLoop.oneUrl 1 := by
  obtain ⟨t, ht, hinstalls, hsettled, hinformed, hrow, hdomains, hlisteners⟩ :
      ∃ t ∈ run siteStep (start sharedNode.db) (publishDuringRegistration true),
        Within siteStep (Installs Node.CommandLoop.oneUrl) (start sharedNode.db)
          (publishDuringRegistration true) ∧
        t.Settled ∧ t.Informed 1 ∧ (t.db.direct 1 1).isSome = true ∧
          t.manager.domains.keys = [] ∧ t.manager.listeners.keys = [] := by
    decide +kernel
  refine ⟨t, ht, hinstalls, hsettled, hinformed, fun hconverged ↦ ?_⟩
  obtain ⟨p, hp⟩ := Option.isSome_iff_exists.mp hrow
  have hserved := hconverged 1
  rw [hp] at hserved
  obtain ⟨e, -, howns⟩ := hserved
  exact not_owns_of_keys hdomains hlisteners "" 1 e ((howns e).mpr rfl)

/-- Then the node reconnects while the proxy moves: the new session gets the stop,
the snapshot with the new port and the start of the new port. -/
def moveDuringReconnect : List SyncInput :=
  [.register, .unregister 0, .close 0 0, move] ++ List.replicate 4 (proceed 1) ++
    [.registration 1 true, .registration 1 true, .execute 1, .execute 1] ++
    List.replicate 4 (proceed 1) ++ [.execute 1, proceed 1]

theorem direct_routes_converge_reconnect :
    ∃ t ∈ run siteStep (start sharedNode.db)
        (publishDuringRegistration false ++ moveDuringReconnect),
      (t.db.direct 1 1).map (·.remotePort) = some 8080 ∧
        t.Converged Node.CommandLoop.oneUrl 1 := by
  obtain ⟨t, ht, horderly, hsettled, hinformed, hport⟩ :
      ∃ t ∈ run siteStep (start sharedNode.db)
          (publishDuringRegistration false ++ moveDuringReconnect),
        Within siteStep (fun s i ↦ s.Installs Node.CommandLoop.oneUrl i ∧ s.InOrder i)
          (start sharedNode.db) (publishDuringRegistration false ++ moveDuringReconnect) ∧
        t.Settled ∧ t.Informed 1 ∧ (t.db.direct 1 1).map (·.remotePort) = some 8080 := by
    decide +kernel
  exact ⟨t, ht, hport, direct_routes_converge Node.CommandLoop.oneUrl originUrl 1 sharedNode.db _ t
    horderly ht hsettled hinformed⟩

end DirectSync

end Oxiproxy.Controller
