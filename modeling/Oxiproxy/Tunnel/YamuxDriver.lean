import Oxiproxy.Foundation.Runs

/-!
# The driver of a multiplexed connection

KCP and TCP tunnels run yamux over one byte stream.  A single task owns the
multiplexer: it hands inbound streams to the accepting side over a bounded channel
and answers the requests for outbound streams, in one loop that goes on as long
as any part of it makes progress.  The drivers of the two tunnels differ only in
their log lines.
-/

namespace Oxiproxy.Tunnel

open Transition

/-- What a poll of the multiplexer yields; streams are named by numbers. -/
inductive YamuxPoll
  | stream (id : ℕ)
  | error (e : String)
  | closed
  | pending

/-- What becomes of a request for an outbound stream; it finds the channel of its
answer closed when the driver is gone. -/
inductive Answer
  | stream (id : ℕ)
  | error (e : String)
  | closed
  deriving DecidableEq

/-- The part of the loop that comes next. -/
inductive DriverPosition
  | inbound
  | receive
  | outbound
  | parked
  | ended (reason : String)
  deriving DecidableEq

structure YamuxDriver where
  position : DriverPosition
  progress : Bool
  /-- The requests that the driver has taken and not yet answered. -/
  pendingOutbound : List ℕ
  inboundChannel : List ℕ
  outboundChannel : List ℕ
  /-- The connection object, with the receiver of inbound streams and the sender
  of requests, is still there. -/
  held : Bool
  /-- The number of requests made so far, which are numbered in turn. -/
  requests : ℕ
  opened : List ℕ
  accepted : List ℕ
  taken : List ℕ
  answers : List (ℕ × Answer)

namespace YamuxDriver

/-- The capacity of both channels. -/
def capacity : ℕ := 32

def new : YamuxDriver :=
  { position := .inbound, progress := false, pendingOutbound := [], inboundChannel := [],
    outboundChannel := [], held := true, requests := 0, opened := [], accepted := [], taken := [],
    answers := [] }

inductive Input
  /-- The driver polls the multiplexer for an inbound stream. -/
  | pollNextInbound (poll : YamuxPoll)
  /-- The driver polls the channel of requests, which may be out of budget. -/
  | pollRecv (ready : Bool)
  /-- The driver polls the multiplexer for an outbound stream. -/
  | pollNewOutbound (poll : YamuxPoll)
  /-- The driver leaves the loop over its pending requests. -/
  | settle
  | wake
  | abort
  | acceptBi
  | openBi
  | dropConnection

/-- Everything that waits for an answer finds the channel closed. -/
def finish (s : YamuxDriver) (reason : String) : YamuxDriver :=
  { s with
    position := .ended reason
    pendingOutbound := []
    outboundChannel := []
    answers := s.answers ++ s.pendingOutbound.map (·, .closed) }

/-- `swap_remove(0)`: the last element takes the place of the first. -/
def swapRemove : List ℕ → List ℕ
  | [] => []
  | _ :: rest => (rest.getLast?).toList ++ rest.dropLast

/-- `try_send` of an inbound stream, which is lost when it fails. -/
def trySend (s : YamuxDriver) (id : ℕ) : YamuxDriver :=
  { s with
    opened := s.opened ++ [id]
    inboundChannel :=
      if s.held ∧ s.inboundChannel.length < capacity then s.inboundChannel ++ [id]
      else s.inboundChannel
    progress := true }

def answerFirst (s : YamuxDriver) (answer : Answer) : YamuxDriver :=
  { s with
    pendingOutbound := swapRemove s.pendingOutbound
    answers := s.answers ++ s.pendingOutbound.head?.toList.map (·, answer)
    progress := true }

/-- The end of one pass of the outer loop. -/
def endPass (s : YamuxDriver) : YamuxDriver :=
  if s.progress then { s with position := .inbound, progress := false }
  else if !s.held && s.pendingOutbound.isEmpty then s.finish "all handles dropped"
  else { s with position := .parked }

def step (s : YamuxDriver) : Input → Option YamuxDriver
  | .pollNextInbound poll =>
      if s.position = .inbound then
        match poll with
        | .stream id => some (s.trySend id)
        | .error e => some (s.finish ("yamux error: " ++ e))
        | .closed => some (s.finish "connection closed by peer")
        | .pending => some { s with position := .receive }
      else none
  | .pollRecv ready =>
      if s.position = .receive then
        match s.outboundChannel, ready with
        | id :: queue, true =>
            some { s with
              outboundChannel := queue
              pendingOutbound := s.pendingOutbound ++ [id]
              taken := s.taken ++ [id]
              progress := true }
        | _, _ => some { s with position := .outbound }
      else none
  | .pollNewOutbound poll =>
      if s.position = .outbound ∧ s.pendingOutbound ≠ [] then
        match poll with
        | .stream id => some (s.answerFirst (.stream id))
        | .error e => some (s.answerFirst (.error ("outbound error: " ++ e)))
        | .closed => none
        | .pending => some s.endPass
      else none
  | .settle => if s.position = .outbound ∧ s.pendingOutbound = [] then some s.endPass else none
  | .wake =>
      if s.position = .parked then some { s with position := .inbound, progress := false } else none
  | .abort =>
      match s.position with
      | .ended _ => none
      | _ => if s.held then none else some (s.finish "aborted")
  | .acceptBi =>
      match s.inboundChannel with
      | id :: queue =>
          if s.held then some { s with inboundChannel := queue, accepted := s.accepted ++ [id] }
          else none
      | [] => none
  | .openBi =>
      match s.position with
      | .ended _ => none
      | _ =>
          if s.held ∧ s.outboundChannel.length < capacity then
            some { s with
              outboundChannel := s.outboundChannel ++ [s.requests]
              requests := s.requests + 1 }
          else none
  | .dropConnection => some { s with held := false }

/-! ## Inbound streams -/

/-- Every stream that the peer opened has been accepted or waits in the channel,
in this order. -/
def Lossless (s : YamuxDriver) : Prop := s.accepted ++ s.inboundChannel = s.opened

/-- A stream that arrives finds room in the channel. -/
def HasRoom (s : YamuxDriver) : Input → Prop
  | .pollNextInbound (.stream _) => s.position = .inbound → s.inboundChannel.length < capacity
  | _ => True

instance (s : YamuxDriver) : ∀ i, Decidable (s.HasRoom i)
  | .pollNextInbound (.stream _) =>
      inferInstanceAs (Decidable (s.position = .inbound → s.inboundChannel.length < capacity))
  | .pollNextInbound (.error _) | .pollNextInbound .closed | .pollNextInbound .pending
  | .pollRecv _ | .pollNewOutbound _ | .settle | .wake | .abort | .acceptBi | .openBi
  | .dropConnection => .isTrue trivial

/-- What the accepting side gets is part of what was opened, in the same order. -/
def Ordered (s : YamuxDriver) : Prop := (s.accepted ++ s.inboundChannel).Sublist s.opened

/-- The streams of either side. -/
def streams (s : YamuxDriver) : List ℕ × List ℕ × Bool :=
  (s.opened, s.accepted ++ s.inboundChannel, s.held)

theorem streams_endPass (s : YamuxDriver) : s.endPass.streams = s.streams := by
  unfold endPass
  split_ifs <;> rfl

/-- Only the arrival of a stream and the end of the connection change them. -/
theorem streams_step {s t : YamuxDriver} {i : Input} (hstep : s.step i = some t) :
    (∃ id, i = .pollNextInbound (.stream id) ∧ s.position = .inbound ∧ t = s.trySend id) ∨
      (i = .dropConnection ∧ t.held = false) ∨
      (t.streams = s.streams ∧ s.HasRoom i) := by
  cases i with
  | pollNextInbound poll =>
      simp only [step] at hstep
      split_ifs at hstep with hpos
      cases poll with
      | stream id =>
          obtain rfl := Option.some.inj hstep
          exact .inl ⟨id, rfl, hpos, rfl⟩
      | error e =>
          obtain rfl := Option.some.inj hstep
          exact .inr (.inr ⟨rfl, trivial⟩)
      | closed =>
          obtain rfl := Option.some.inj hstep
          exact .inr (.inr ⟨rfl, trivial⟩)
      | pending =>
          obtain rfl := Option.some.inj hstep
          exact .inr (.inr ⟨rfl, trivial⟩)
  | pollRecv ready =>
      simp only [step] at hstep
      split_ifs at hstep
      split at hstep <;> obtain rfl := Option.some.inj hstep <;> exact .inr (.inr ⟨rfl, trivial⟩)
  | pollNewOutbound poll =>
      simp only [step] at hstep
      split_ifs at hstep
      cases poll with
      | stream id =>
          obtain rfl := Option.some.inj hstep
          exact .inr (.inr ⟨rfl, trivial⟩)
      | error e =>
          obtain rfl := Option.some.inj hstep
          exact .inr (.inr ⟨rfl, trivial⟩)
      | closed => cases hstep
      | pending =>
          obtain rfl := Option.some.inj hstep
          exact .inr (.inr ⟨s.streams_endPass, trivial⟩)
  | settle =>
      simp only [step] at hstep
      split_ifs at hstep
      obtain rfl := Option.some.inj hstep
      exact .inr (.inr ⟨s.streams_endPass, trivial⟩)
  | wake =>
      simp only [step] at hstep
      split_ifs at hstep
      obtain rfl := Option.some.inj hstep
      exact .inr (.inr ⟨rfl, trivial⟩)
  | abort =>
      simp only [step] at hstep
      split at hstep
      · cases hstep
      · split_ifs at hstep
        obtain rfl := Option.some.inj hstep
        exact .inr (.inr ⟨rfl, trivial⟩)
  | acceptBi =>
      simp only [step] at hstep
      split at hstep
      · next id queue hqueue =>
          split_ifs at hstep
          obtain rfl := Option.some.inj hstep
          refine .inr (.inr ⟨?_, trivial⟩)
          simp only [streams, hqueue, List.append_assoc, List.singleton_append]
      · cases hstep
  | openBi =>
      simp only [step] at hstep
      split at hstep
      · cases hstep
      · split_ifs at hstep
        obtain rfl := Option.some.inj hstep
        exact .inr (.inr ⟨rfl, trivial⟩)
  | dropConnection =>
      obtain rfl := Option.some.inj hstep
      exact .inr (.inl ⟨rfl, rfl⟩)

theorem streams_inj {s t : YamuxDriver} (h : t.streams = s.streams) :
    t.opened = s.opened ∧ t.accepted ++ t.inboundChannel = s.accepted ++ s.inboundChannel ∧
      t.held = s.held := by
  obtain ⟨hopened, hrest⟩ := Prod.mk.inj h
  obtain ⟨haccepted, hheld⟩ := Prod.mk.inj hrest
  exact ⟨hopened, haccepted, hheld⟩

theorem held_of_step {s t : YamuxDriver} {i : Input} (hstep : s.step i = some t)
    (hheld : t.held = true) : s.held = true := by
  rcases streams_step hstep with ⟨id, -, -, rfl⟩ | ⟨-, hdropped⟩ | ⟨hsame, -⟩
  · exact hheld
  · rw [hdropped] at hheld
    cases hheld
  · rw [← (streams_inj hsame).2.2, hheld]

theorem Ordered.trySend {s : YamuxDriver} (h : s.Ordered) (id : ℕ) : (s.trySend id).Ordered := by
  unfold Ordered YamuxDriver.trySend
  dsimp only
  split_ifs
  · rw [← List.append_assoc]
    exact List.Sublist.append h (List.Sublist.refl _)
  · exact h.trans (List.sublist_append_left _ _)

theorem Ordered.step {s t : YamuxDriver} {i : Input} (h : s.Ordered) (hstep : s.step i = some t)
    (hheld : t.held = true) : t.Ordered := by
  rcases streams_step hstep with ⟨id, -, -, rfl⟩ | ⟨-, hdropped⟩ | ⟨hsame, -⟩
  · exact h.trySend id
  · rw [hdropped] at hheld
    cases hheld
  · obtain ⟨hopened, haccepted, -⟩ := streams_inj hsame
    rw [Ordered, hopened, haccepted]
    exact h

/-- A stream that is lost stays lost, and one is lost exactly when it finds the
channel full. -/
theorem lossless_step {s t : YamuxDriver} {i : Input} (h : s.Ordered)
    (hstep : s.step i = some t) (hheld : t.held = true) :
    t.Lossless ↔ s.Lossless ∧ s.HasRoom i := by
  rcases streams_step hstep with ⟨id, rfl, hpos, rfl⟩ | ⟨-, hdropped⟩ | ⟨hsame, hroom⟩
  · have hroom : s.HasRoom (.pollNextInbound (.stream id)) ↔ s.inboundChannel.length < capacity :=
      ⟨fun hroom ↦ hroom hpos, fun hlt _ ↦ hlt⟩
    have hkept : s.held = true := hheld
    rw [hroom]
    unfold Lossless YamuxDriver.trySend
    dsimp only
    by_cases hlt : s.inboundChannel.length < capacity
    · rw [if_pos ⟨hkept, hlt⟩, ← List.append_assoc, List.append_cancel_right_eq,
        and_iff_left hlt]
    · -- the list of opened streams has outgrown what is handed over
      rw [if_neg fun hboth ↦ hlt hboth.2]
      refine iff_of_false (fun heq ↦ ?_) fun hboth ↦ hlt hboth.2
      have hlength := h.length_le
      rw [heq, List.length_append, List.length_singleton] at hlength
      omega
  · rw [hdropped] at hheld
    cases hheld
  · obtain ⟨hopened, haccepted, -⟩ := streams_inj hsame
    rw [Lossless, hopened, haccepted, and_iff_left hroom, Lossless]

theorem held_of_run {s t : YamuxDriver} {inputs : List Input}
    (hrun : run step s inputs = some t) (hheld : t.held = true) : s.held = true := by
  induction inputs generalizing s with
  | nil =>
      obtain rfl := Option.some.inj hrun
      exact hheld
  | cons i inputs ih =>
      obtain ⟨u, hstep, hrest⟩ := run_cons_eq_some.mp hrun
      exact held_of_step hstep (ih hrest)

theorem lossless_run {s t : YamuxDriver} {inputs : List Input} (h : s.Ordered)
    (hrun : run step s inputs = some t) (hheld : t.held = true) :
    t.Lossless ↔ s.Lossless ∧ Within step HasRoom s inputs := by
  induction inputs generalizing s with
  | nil =>
      obtain rfl := Option.some.inj hrun
      exact (and_iff_left trivial).symm
  | cons i inputs ih =>
      obtain ⟨u, hstep, hrest⟩ := run_cons_eq_some.mp hrun
      have hkept := held_of_run hrest hheld
      rw [ih (h.step hstep hkept) hrest, lossless_step h hstep hkept, and_assoc,
        within_cons_iff hstep]

/-! ## Outbound requests -/

theorem perm_swapRemove (id : ℕ) (rest : List ℕ) : (swapRemove (id :: rest)).Perm rest := by
  rcases List.eq_nil_or_concat rest with rfl | ⟨front, last, rfl⟩
  · exact List.Perm.refl _
  · simp only [swapRemove, List.concat_eq_append, List.getLast?_append, List.getLast?_singleton,
      Option.some_or, Option.toList_some, List.dropLast_concat]
    exact List.perm_append_comm

/-- The requests that were taken are different, each of them has been answered
once or is still pending, and none is pending when the driver has ended. -/
structure AnswersOnce (s : YamuxDriver) : Prop where
  numbered : ∀ id ∈ s.taken ++ s.outboundChannel, id < s.requests
  nodup : (s.taken ++ s.outboundChannel).Nodup
  answered : (s.answers.map Prod.fst ++ s.pendingOutbound).Perm s.taken
  ended : ∀ reason, s.position = .ended reason → s.pendingOutbound = []

variable {s t : YamuxDriver}

theorem AnswersOnce.finish (h : s.AnswersOnce) (reason : String) :
    (s.finish reason).AnswersOnce := by
  have hsub : (s.taken ++ []).Sublist (s.taken ++ s.outboundChannel) :=
    List.Sublist.append (List.Sublist.refl _) (List.nil_sublist _)
  refine ⟨fun id hid ↦ h.numbered id (hsub.subset hid), h.nodup.sublist hsub, ?_, fun _ _ ↦ rfl⟩
  have hanswers : (s.finish reason).answers.map Prod.fst =
      s.answers.map Prod.fst ++ s.pendingOutbound := by
    unfold YamuxDriver.finish
    rw [List.map_append, List.map_map]
    exact congrArg _ (List.map_id _)
  rw [hanswers]
  exact (List.append_nil _).symm ▸ h.answered

theorem AnswersOnce.answerFirst (h : s.AnswersOnce) (hposition : s.position = .outbound)
    (hpending : s.pendingOutbound ≠ []) (answer : Answer) : (s.answerFirst answer).AnswersOnce := by
  obtain ⟨id, rest, hcons⟩ := List.exists_cons_of_ne_nil hpending
  refine ⟨h.numbered, h.nodup, ?_, fun reason hended ↦ ?_⟩
  · have hperm := h.answered
    unfold YamuxDriver.answerFirst
    rw [hcons] at hperm ⊢
    simp only [List.head?_cons, Option.toList_some, List.map_cons, List.map_nil, List.map_append,
      List.append_assoc, List.singleton_append]
    exact ((perm_swapRemove id rest).cons id |>.append_left _).trans hperm
  · have hsame : s.position = .ended reason := hended
    rw [hposition] at hsame
    cases hsame

theorem AnswersOnce.endPass (h : s.AnswersOnce) : s.endPass.AnswersOnce := by
  unfold YamuxDriver.endPass
  split_ifs
  · exact ⟨h.numbered, h.nodup, h.answered, fun _ hended ↦ by cases hended⟩
  · exact h.finish _
  · exact ⟨h.numbered, h.nodup, h.answered, fun _ hended ↦ by cases hended⟩

theorem AnswersOnce.step {i : Input} (h : s.AnswersOnce) (hstep : s.step i = some t) :
    t.AnswersOnce := by
  cases i with
  | pollNextInbound poll =>
      simp only [YamuxDriver.step] at hstep
      split_ifs at hstep with hpos
      cases poll with
      | stream id =>
          obtain rfl := Option.some.inj hstep
          exact ⟨h.numbered, h.nodup, h.answered, h.ended⟩
      | error e =>
          obtain rfl := Option.some.inj hstep
          exact h.finish _
      | closed =>
          obtain rfl := Option.some.inj hstep
          exact h.finish _
      | pending =>
          obtain rfl := Option.some.inj hstep
          exact ⟨h.numbered, h.nodup, h.answered, fun _ hended ↦ by cases hended⟩
  | pollRecv ready =>
      simp only [YamuxDriver.step] at hstep
      split_ifs at hstep with hpos
      split at hstep
      · next id queue hqueue =>
          obtain rfl := Option.some.inj hstep
          have hsplit : (s.taken ++ [id]) ++ queue = s.taken ++ s.outboundChannel := by
            rw [hqueue, List.append_assoc, List.singleton_append]
          refine ⟨fun id' hid' ↦ h.numbered id' (hsplit ▸ hid'), hsplit.symm ▸ h.nodup, ?_,
            fun reason hended ↦ ?_⟩
          · dsimp only
            rw [← List.append_assoc]
            exact h.answered.append_right [id]
          · have hsame : s.position = .ended reason := hended
            rw [hpos] at hsame
            cases hsame
      · obtain rfl := Option.some.inj hstep
        exact ⟨h.numbered, h.nodup, h.answered, fun _ hended ↦ by cases hended⟩
  | pollNewOutbound poll =>
      simp only [YamuxDriver.step] at hstep
      split_ifs at hstep with hpos
      cases poll with
      | stream id =>
          obtain rfl := Option.some.inj hstep
          exact h.answerFirst hpos.1 hpos.2 _
      | error e =>
          obtain rfl := Option.some.inj hstep
          exact h.answerFirst hpos.1 hpos.2 _
      | closed => cases hstep
      | pending =>
          obtain rfl := Option.some.inj hstep
          exact h.endPass
  | settle =>
      simp only [YamuxDriver.step] at hstep
      split_ifs at hstep
      obtain rfl := Option.some.inj hstep
      exact h.endPass
  | wake =>
      simp only [YamuxDriver.step] at hstep
      split_ifs at hstep
      obtain rfl := Option.some.inj hstep
      exact ⟨h.numbered, h.nodup, h.answered, fun _ hended ↦ by cases hended⟩
  | abort =>
      simp only [YamuxDriver.step] at hstep
      split at hstep
      · cases hstep
      · split_ifs at hstep
        obtain rfl := Option.some.inj hstep
        exact h.finish _
  | acceptBi =>
      simp only [YamuxDriver.step] at hstep
      split at hstep
      · split_ifs at hstep
        obtain rfl := Option.some.inj hstep
        exact ⟨h.numbered, h.nodup, h.answered, h.ended⟩
      · cases hstep
  | openBi =>
      simp only [YamuxDriver.step] at hstep
      split at hstep
      · cases hstep
      · next hrunning =>
          split_ifs at hstep
          obtain rfl := Option.some.inj hstep
          have hnew : s.requests ∉ s.taken ++ s.outboundChannel :=
            fun hmem ↦ lt_irrefl _ (h.numbered _ hmem)
          refine ⟨fun id hid ↦ ?_, ?_, h.answered, h.ended⟩
          · dsimp only at hid ⊢
            rw [← List.append_assoc, List.mem_append, List.mem_singleton] at hid
            rcases hid with hid | rfl
            · exact (h.numbered id hid).trans (Nat.lt_succ_self _)
            · exact Nat.lt_succ_self _
          · dsimp only
            rw [← List.append_assoc, ← List.concat_eq_append]
            exact h.nodup.concat hnew
  | dropConnection =>
      obtain rfl := Option.some.inj hstep
      exact ⟨h.numbered, h.nodup, h.answered, h.ended⟩

/-- Requests are answered once in every run; and while the connection is held,
every inbound stream is handed over in order exactly if each finds room in the
channel when it arrives. -/
theorem driver_loses_nothing_iff {inputs : List Input} (hrun : run step new inputs = some s) :
    s.AnswersOnce ∧ (s.held = true → (s.Lossless ↔ Within step HasRoom new inputs)) := by
  have hstep : ∀ s i t, AnswersOnce s → step s i = some t → AnswersOnce t :=
    fun _ _ _ h ↦ h.step
  have hnew : AnswersOnce new :=
    ⟨fun _ hid ↦ (List.not_mem_nil hid).elim, List.nodup_nil, List.Perm.refl _, fun _ _ ↦ rfl⟩
  have hordered : Ordered new := List.Sublist.refl _
  have hlossless : Lossless new := rfl
  refine ⟨run_invariant_of_step hstep hnew hrun, fun hheld ↦ ?_⟩
  rw [lossless_run hordered hrun hheld, and_iff_right hlossless]

/-- One stream arrives and is accepted, one request is made and answered. -/
def calmRun : List Input :=
  [.pollNextInbound (.stream 7), .pollNextInbound .pending, .openBi, .acceptBi, .pollRecv true,
    .pollRecv false, .pollNewOutbound (.stream 8), .settle]

theorem driver_loses_nothing_iff_calmRun :
    ∃ s, run step new calmRun = some s ∧ s.AnswersOnce ∧ s.Lossless := by
  have hrun : run step new calmRun = some _ := rfl
  obtain ⟨honce, hlossless⟩ := driver_loses_nothing_iff hrun
  exact ⟨_, hrun, honce, (hlossless rfl).mpr (by decide)⟩

/-- The peer opens one stream more than the channel holds before the accepting
side takes the first. -/
theorem not_lossless_burst :
    ∃ s, run step new ((List.range 33).map fun id ↦ .pollNextInbound (.stream id)) = some s ∧
      s.held = true ∧ s.opened.length = 33 ∧ (s.accepted ++ s.inboundChannel).length = 32 ∧
        ¬ s.Lossless := by
  have hresult : (run step new ((List.range 33).map fun id ↦ .pollNextInbound (.stream id))).any
      (fun s ↦ s.held = true ∧ s.opened.length = 33 ∧
        (s.accepted ++ s.inboundChannel).length = 32) = true := by
    decide +kernel
  obtain ⟨s, hrun, hend⟩ := (Option.any_eq_true _ _).mp hresult
  obtain ⟨hheld, hopened, hhanded⟩ := of_decide_eq_true hend
  refine ⟨s, hrun, hheld, hopened, hhanded, fun h ↦ ?_⟩
  rw [h, hopened] at hhanded
  cases hhanded

end YamuxDriver

end Oxiproxy.Tunnel
