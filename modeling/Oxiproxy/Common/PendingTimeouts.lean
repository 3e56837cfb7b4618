import Oxiproxy.Common.PendingRequests

/-!
# Answers and the cleanup of pending requests

No request is answered twice, and no response reaches the waiter of another
request.  The cleanup drops what is older than its bound, whatever timeout the
caller has chosen: only a wait that ends within the bound is safe from it.
-/

namespace Oxiproxy.Pool

open Transition

variable {T : Type} {p q : Pool T} {j k : ℕ} {t : PendingRequests} {c : Call T}
  {input : PendingInput T} {inputs : List (PendingInput T)}

/-! ## Responses -/

theorem answered_step (h : p.step input = some q) (id : String) (response : T)
    (hmem : (id, response) ∈ q.answered) :
    (id, response) ∈ p.answered ∨ ∃ j, input = .complete j id response := by
  cases input with
  | new =>
      cases h
      exact .inl hmem
  | register j id' caller =>
      obtain ⟨t, -, -, -, rfl⟩ := step_register h
      exact .inl hmem
  | wait k =>
      obtain ⟨c, -, -, rfl⟩ := step_wait h
      exact .inl hmem
  | poll k =>
      obtain ⟨c, deadline, result, -, -, -, rfl⟩ := step_poll h
      exact .inl hmem
  | giveUp k =>
      obtain ⟨c, -, -, rfl⟩ := step_giveUp h
      exact .inl hmem
  | complete j id' response' =>
      obtain ⟨t, -, rfl⟩ := step_complete h
      unfold Pool.complete at hmem
      split at hmem
      · exact .inl hmem
      · next entry hlookup =>
          simp only at hmem
          split_ifs at hmem
          · rcases List.mem_append.mp hmem with hold | hnew
            · exact .inl hold
            · obtain ⟨rfl, rfl⟩ := Prod.mk.inj (List.mem_singleton.mp hnew)
              exact .inr ⟨j, rfl⟩
          · exact .inl hmem
  | cleanup j =>
      obtain ⟨t, -, -, rfl⟩ := step_cleanup h
      exact .inl hmem
  | drop j =>
      obtain ⟨t, -, rfl⟩ := step_drop h
      exact .inl hmem
  | advance duration =>
      cases h
      exact .inl hmem

theorem answered_run (h : run step p inputs = some q) (id : String) (response : T)
    (hmem : (id, response) ∈ q.answered) :
    (id, response) ∈ p.answered ∨ ∃ j, PendingInput.complete j id response ∈ inputs := by
  induction inputs generalizing p with
  | nil =>
      cases h
      exact .inl hmem
  | cons input inputs ih =>
      obtain ⟨r, hr, hrest⟩ := run_cons_eq_some.mp h
      rcases ih hrest with hmem | ⟨j, hmem⟩
      · rcases answered_step hr id response hmem with hmem | ⟨j, rfl⟩
        · exact .inl hmem
        · exact .inr ⟨j, List.mem_cons_self⟩
      · exact .inr ⟨j, List.mem_cons_of_mem input hmem⟩

/-! ## Timeouts -/

/-- No caller that still waits loses its entry. -/
def KeepsWaiting (p q : Pool T) : Prop :=
  ∀ (k : ℕ) c entry, p.calls[k]? = some c → c.StillWaiting p.now →
    p.findEntry c.table c.requestId = some entry → q.findEntry c.table c.requestId = some entry

/-- Only callers whose timeout fits into the staleness bound register, and none
of them takes so long to send its request that the wait would end after it. -/
def InTime (p : Pool T) : PendingInput T → Prop
  | .register _ _ caller => caller.timeout ≤ STALE_REQUEST_TIMEOUT
  | .advance duration => ∀ c ∈ p.calls, c.phase.isSending = true →
      p.now + duration + c.caller.timeout ≤ c.createdAt + STALE_REQUEST_TIMEOUT
  | _ => True

/-- The wait of the call ends within the staleness bound. -/
def CallFits (now : ℕ) (c : Call T) : Prop :=
  match c.phase with
  | .sending => now + c.caller.timeout ≤ c.createdAt + STALE_REQUEST_TIMEOUT
  | .waiting deadline => deadline ≤ c.createdAt + STALE_REQUEST_TIMEOUT
  | .done _ | .gone => True

def Fits (p : Pool T) : Prop := ∀ (k : ℕ) c, p.calls[k]? = some c → CallFits p.now c

theorem Fits.rewrites {f : ℕ → Call T → Call T} (hp : p.Fits) (h : Rewrites p q f)
    (hphase : ∀ k c, (f k c).phase = c.phase) (hnow : q.now = p.now) : q.Fits := by
  intro k c' hk
  obtain ⟨c, hc, rfl⟩ := h.get_inv hk
  have hfits := hp k c hc
  unfold CallFits at hfits ⊢
  rw [hphase, hnow, h.createdAt, h.caller]
  exact hfits

theorem Fits.setPhase {phase : Phase T} (hp : p.Fits)
    (hfits : ∀ c, p.calls[k]? = some c → CallFits p.now { c with phase := phase }) :
    (p.setPhase k phase).Fits := by
  intro k' c' hk'
  obtain ⟨c, hc, rfl⟩ := (rewrites_setPhase p k phase).get_inv hk'
  change CallFits p.now _
  split_ifs with hk
  · subst hk
    exact hfits c hc
  · exact hp k' c hc

theorem Fits.complete (hp : p.Fits) (j : ℕ) (t : PendingRequests) (id : String) (response : T) :
    (p.complete j t id response).Fits := by
  cases hlookup : t.pending.lookup id with
  | none =>
      have hsame : p.complete j t id response = p := by simp only [Pool.complete, hlookup]
      rwa [hsame]
  | some entry =>
      refine hp.rewrites (rewrites_complete hlookup j response) (fun k c ↦ ?_) ?_
      · split_ifs <;> rfl
      · simp only [Pool.complete, hlookup]
        rfl

theorem Fits.prune (hp : p.Fits) (j : ℕ) (t : PendingRequests) (t' : Option PendingRequests)
    (keep : PendingEntry → Bool) : (p.prune j t t' keep).Fits := by
  refine hp.rewrites (rewrites_prune p j t t' keep) (fun k c ↦ ?_) rfl
  split_ifs <;> rfl

theorem Fits.step (hp : p.Fits) (hok : InTime p input) (h : p.step input = some q) : q.Fits := by
  cases input with
  | new =>
      cases h
      exact hp
  | register j id caller =>
      obtain ⟨t, -, -, -, rfl⟩ := step_register h
      intro k c hk
      rcases (calls_register p j t id caller k c).mp hk with hold | ⟨-, rfl⟩
      · exact hp k c hold
      · exact Nat.add_le_add_left hok p.now
  | wait k =>
      obtain ⟨c, hc, hphase, rfl⟩ := step_wait h
      refine hp.setPhase fun c' hc' ↦ ?_
      obtain rfl := Option.some.inj (hc.symm.trans hc')
      have hfits := hp k c hc
      rw [CallFits, hphase] at hfits
      exact hfits
  | poll k =>
      obtain ⟨c, deadline, result, -, -, -, rfl⟩ := step_poll h
      exact hp.setPhase fun _ _ ↦ trivial
  | giveUp k =>
      obtain ⟨c, -, -, rfl⟩ := step_giveUp h
      exact hp.setPhase fun _ _ ↦ trivial
  | complete j id response =>
      obtain ⟨t, -, rfl⟩ := step_complete h
      exact hp.complete j t id response
  | cleanup j =>
      obtain ⟨t, -, -, rfl⟩ := step_cleanup h
      exact hp.prune j t _ _
  | drop j =>
      obtain ⟨t, -, rfl⟩ := step_drop h
      exact hp.prune j t _ _
  | advance duration =>
      cases h
      intro k c hk
      have hfits := hp k c hk
      unfold CallFits at hfits ⊢
      cases hphase : c.phase with
      | sending => exact hok c (List.mem_of_getElem? hk) (by rw [hphase]; rfl)
      | waiting deadline =>
          rw [hphase] at hfits
          exact hfits
      | done result => trivial
      | gone => trivial

/-- Only `advance` moves the clock. -/
theorem now_step (h : p.step input = some q) (hadvance : ∀ duration, input ≠ .advance duration) :
    q.now = p.now := by
  cases input with
  | new =>
      cases h
      rfl
  | register j id caller =>
      obtain ⟨t, -, -, -, rfl⟩ := step_register h
      rfl
  | wait k =>
      obtain ⟨c, -, -, rfl⟩ := step_wait h
      rfl
  | poll k =>
      obtain ⟨c, deadline, result, -, -, -, rfl⟩ := step_poll h
      rfl
  | giveUp k =>
      obtain ⟨c, -, -, rfl⟩ := step_giveUp h
      rfl
  | complete j id response =>
      obtain ⟨t, -, rfl⟩ := step_complete h
      unfold Pool.complete
      split <;> rfl
  | cleanup j =>
      obtain ⟨t, -, -, rfl⟩ := step_cleanup h
      rfl
  | drop j =>
      obtain ⟨t, -, rfl⟩ := step_drop h
      rfl
  | advance duration => exact absurd rfl (hadvance duration)

theorem sending_of_rewrites {f : ℕ → Call T → Call T} (h : Rewrites p q f)
    (hphase : ∀ k c, (f k c).phase.isSending = true → c.phase.isSending = true)
    (hk : q.calls[k]? = some c) (hsending : c.phase.isSending = true) :
    ∃ old, p.calls[k]? = some old ∧ old.phase.isSending = true ∧ old.createdAt = c.createdAt ∧
      old.caller = c.caller := by
  obtain ⟨old, hold, rfl⟩ := h.get_inv hk
  exact ⟨old, hold, hphase k old hsending, (h.createdAt k old).symm, (h.caller k old).symm⟩

/-- A call that is still sending was sending before, or is new. -/
theorem sending_step (h : p.step input = some q) (hk : q.calls[k]? = some c)
    (hsending : c.phase.isSending = true) :
    (∃ old, p.calls[k]? = some old ∧ old.phase.isSending = true ∧ old.createdAt = c.createdAt ∧
        old.caller = c.caller) ∨
      ∃ j id, input = .register j id c.caller ∧ k = p.calls.length ∧ c.createdAt = p.now := by
  have hphase (phase : Phase T) (hphase : phase.isSending = false) (k₀ : ℕ)
      (hk : (p.setPhase k₀ phase).calls[k]? = some c) :
      ∃ old, p.calls[k]? = some old ∧ old.phase.isSending = true ∧ old.createdAt = c.createdAt ∧
        old.caller = c.caller := by
    refine sending_of_rewrites (rewrites_setPhase p k₀ phase) (fun k' c' hs ↦ ?_) hk hsending
    split_ifs at hs
    · cases hphase.symm.trans hs
    · exact hs
  cases input with
  | new =>
      cases h
      exact .inl ⟨c, hk, hsending, rfl, rfl⟩
  | register j id caller =>
      obtain ⟨t, -, -, -, rfl⟩ := step_register h
      rcases (calls_register p j t id caller k c).mp hk with hold | ⟨rfl, rfl⟩
      · exact .inl ⟨c, hold, hsending, rfl, rfl⟩
      · exact .inr ⟨j, id, rfl, rfl, rfl⟩
  | wait k₀ =>
      obtain ⟨c₀, -, -, rfl⟩ := step_wait h
      exact .inl (hphase _ rfl k₀ hk)
  | poll k₀ =>
      obtain ⟨c₀, deadline, result, -, -, -, rfl⟩ := step_poll h
      exact .inl (hphase _ rfl k₀ hk)
  | giveUp k₀ =>
      obtain ⟨c₀, -, -, rfl⟩ := step_giveUp h
      exact .inl (hphase _ rfl k₀ hk)
  | complete j id response =>
      obtain ⟨t, -, rfl⟩ := step_complete h
      cases hlookup : t.pending.lookup id with
      | none =>
          simp only [Pool.complete, hlookup] at hk
          exact .inl ⟨c, hk, hsending, rfl, rfl⟩
      | some entry =>
          refine .inl (sending_of_rewrites (rewrites_complete hlookup j response)
            (fun k' c' hs ↦ ?_) hk hsending)
          split_ifs at hs <;> exact hs
  | cleanup j =>
      obtain ⟨t, -, -, rfl⟩ := step_cleanup h
      refine .inl (sending_of_rewrites (rewrites_prune p j t _ _) (fun k' c' hs ↦ ?_) hk hsending)
      split_ifs at hs <;> exact hs
  | drop j =>
      obtain ⟨t, -, rfl⟩ := step_drop h
      refine .inl (sending_of_rewrites (rewrites_prune p j t _ _) (fun k' c' hs ↦ ?_) hk hsending)
      split_ifs at hs <;> exact hs
  | advance duration =>
      cases h
      exact .inl ⟨c, hk, hsending, rfl, rfl⟩

/-- An entry is fresh as long as its caller waits. -/
theorem fresh_of_stillWaiting {now : ℕ} {entry : PendingEntry} (hfits : CallFits now c)
    (hwaits : c.StillWaiting now) (hcreated : c.createdAt = entry.createdAt) :
    PendingRequests.fresh now entry = true := by
  have hage : now < c.createdAt + STALE_REQUEST_TIMEOUT := by
    unfold CallFits at hfits
    unfold Call.StillWaiting at hwaits
    have hpositive : 0 < c.caller.timeout := by
      cases c.caller <;> decide
    cases hphase : c.phase with
    | sending =>
        rw [hphase] at hfits
        simp only at hfits
        omega
    | waiting deadline =>
        rw [hphase] at hfits hwaits
        exact Nat.lt_of_lt_of_le hwaits hfits
    | done result =>
        rw [hphase] at hwaits
        exact hwaits.elim
    | gone =>
        rw [hphase] at hwaits
        exact hwaits.elim
  have hbound : 0 < STALE_REQUEST_TIMEOUT := by decide
  have hage : now - entry.createdAt < STALE_REQUEST_TIMEOUT := by omega
  exact decide_eq_true hage

/-- What is dropped as stale has no caller that still waits. -/
theorem keepsWaiting_cleanup (hp : p.Consistent) (hfits : p.Fits)
    (h : p.step (.cleanup j) = some q) : KeepsWaiting p q := by
  obtain ⟨t, ht, -, rfl⟩ := step_cleanup h
  intro k c entry hk hwaits hentry
  refine (findEntry_prune ht (lookup_cleanup t p.now) _ _ _).mpr ⟨hentry, fun _ ↦ ?_⟩
  obtain ⟨c', hc', -, hid, hcreated, -⟩ := hp.entry _ _ _ hentry
  obtain rfl := hp.distinct _ _ _ _ hc' hk hid
  obtain rfl := Option.some.inj (hk.symm.trans hc')
  exact fresh_of_stillWaiting (hfits _ c hk) hwaits hcreated

/-- A receiver was closed with its table, or when its caller had stopped waiting. -/
def ClosedLate (p : Pool T) : Prop :=
  ∀ (k : ℕ) c, p.calls[k]? = some c → c.rx = .closed →
    p.tables[c.table]? = some none ∨ ¬ c.StillWaiting p.now

theorem tables_of_table (ht : p.table? j = some t) : p.tables[j]? = some (some t) := by
  unfold table? at ht
  exact Option.join_eq_some_iff.mp ht

theorem tables_setTable (ht : p.table? j = some t) (t' : Option PendingRequests) (j' : ℕ) :
    (p.setTable j t').tables[j']? = if j = j' then some t' else p.tables[j']? := by
  have hj : j < p.tables.length := by
    obtain ⟨h, -⟩ := List.getElem?_eq_some_iff.mp (tables_of_table ht)
    exact h
  simp only [setTable, List.getElem?_set, hj, if_true]

/-- Other tables of a dropped number stay as they are. -/
theorem tables_setTable_of_dropped (ht : p.table? j = some t) {t' : Option PendingRequests}
    {j' : ℕ} (hnone : p.tables[j']? = some none) : (p.setTable j t').tables[j']? = some none := by
  rw [tables_setTable ht, if_neg, hnone]
  rintro rfl
  rw [tables_of_table ht] at hnone
  cases hnone

theorem ClosedLate.setPhase {phase : Phase T} (hp : p.ClosedLate)
    (hlate : ∀ c, p.calls[k]? = some c → Call.StillWaiting p.now { c with phase := phase } →
      c.StillWaiting p.now) : (p.setPhase k phase).ClosedLate := by
  intro k' c' hk' hclosed
  obtain ⟨c, hc, rfl⟩ := (rewrites_setPhase p k phase).get_inv hk'
  change p.tables[_]? = some none ∨ ¬ Call.StillWaiting p.now _
  split_ifs at hclosed ⊢ with hk
  · subst hk
    rcases hp k c hc hclosed with hnone | hstopped
    · exact .inl hnone
    · exact .inr fun hwaits ↦ hstopped (hlate c hc hwaits)
  · exact hp k' c hc hclosed

theorem not_stillWaiting_of_not_listening {now : ℕ} (h : c.Listening = false) :
    ¬ c.StillWaiting now := by
  unfold Call.Listening at h
  unfold Call.StillWaiting
  cases hphase : c.phase with
  | sending => rw [hphase] at h; cases h
  | waiting deadline => rw [hphase] at h; cases h
  | done result => exact id
  | gone => exact id

theorem ClosedLate.complete (hp : p.ClosedLate) (ht : p.table? j = some t) (id : String)
    (response : T) : (p.complete j t id response).ClosedLate := by
  cases hlookup : t.pending.lookup id with
  | none =>
      have hsame : p.complete j t id response = p := by simp only [Pool.complete, hlookup]
      rwa [hsame]
  | some entry =>
      have htable : ∀ j' : ℕ, p.tables[j']? = some none →
          (p.complete j t id response).tables[j']? = some none := by
        intro j' hnone
        simp only [Pool.complete, hlookup]
        exact tables_setTable_of_dropped ht hnone
      have hnow : (p.complete j t id response).now = p.now := by
        simp only [Pool.complete, hlookup]
        rfl
      intro k c' hk hclosed
      obtain ⟨c, hc, rfl⟩ := (rewrites_complete hlookup j response).get_inv hk
      rw [hnow]
      split_ifs at hclosed ⊢ with hsender
      · right
        unfold Call.answer at hclosed
        split_ifs at hclosed with hlistening
        exact not_stillWaiting_of_not_listening (Bool.eq_false_of_not_eq_true hlistening)
      · rcases hp k c hc hclosed with hnone | hstopped
        · exact .inl (htable _ hnone)
        · exact .inr hstopped

/-- Only the cleanup closes receivers whose table stays. -/
theorem ClosedLate.prune (hp : p.ClosedLate) (hconsistent : p.Consistent)
    (ht : p.table? j = some t) {t' : Option PendingRequests} {keep : PendingEntry → Bool}
    (hkeep : t' = none ∨ ∀ (k : ℕ) c, p.calls[k]? = some c → k ∈ t.dropped keep →
      ¬ c.StillWaiting p.now) :
    (p.prune j t t' keep).ClosedLate := by
  intro k c' hk hclosed
  obtain ⟨c, hc, rfl⟩ := (rewrites_prune p j t t' keep).get_inv hk
  change (p.setTable j t').tables[_]? = some none ∨ ¬ Call.StillWaiting p.now _
  rw [tables_setTable ht]
  split_ifs at hclosed ⊢ with hmem hj hj
  · rcases hkeep with rfl | hstopped
    · exact .inl rfl
    · exact .inr (hstopped k c hc hmem)
  · obtain ⟨id, entry, hlookup, -, rfl⟩ := PendingRequests.mem_dropped.mp hmem
    obtain ⟨d, hd, htable, -⟩ := hconsistent.entry j id entry
      ((findEntry_of_table ht id).trans hlookup)
    obtain rfl := Option.some.inj (hc.symm.trans hd)
    exact (hj htable.symm).elim
  · rcases hp k c hc hclosed with hnone | hstopped
    · rw [← hj, tables_of_table ht] at hnone
      cases hnone
    · exact .inr hstopped
  · exact hp k c hc hclosed

theorem ClosedLate.step (hp : p.ClosedLate) (hconsistent : p.Consistent) (hfits : p.Fits)
    (h : p.step input = some q) : q.ClosedLate := by
  cases input with
  | new =>
      cases h
      intro k c hk hclosed
      rcases hp k c hk hclosed with hnone | hstopped
      · left
        obtain ⟨hlt, -⟩ := List.getElem?_eq_some_iff.mp hnone
        exact (List.getElem?_append_left hlt).trans hnone
      · exact .inr hstopped
  | register j id caller =>
      obtain ⟨t, ht, -, -, rfl⟩ := step_register h
      intro k c hk hclosed
      rcases (calls_register p j t id caller k c).mp hk with hold | ⟨-, rfl⟩
      · rcases hp k c hold hclosed with hnone | hstopped
        · exact .inl (tables_setTable_of_dropped ht hnone)
        · exact .inr hstopped
      · cases hclosed
  | wait k =>
      obtain ⟨c, hc, hphase, rfl⟩ := step_wait h
      refine hp.setPhase fun c' hc' _ ↦ ?_
      obtain rfl := Option.some.inj (hc.symm.trans hc')
      rw [Call.StillWaiting, hphase]
      trivial
  | poll k =>
      obtain ⟨c, deadline, result, -, -, -, rfl⟩ := step_poll h
      exact hp.setPhase fun _ _ hwaits ↦ hwaits.elim
  | giveUp k =>
      obtain ⟨c, -, -, rfl⟩ := step_giveUp h
      exact hp.setPhase fun _ _ hwaits ↦ hwaits.elim
  | complete j id response =>
      obtain ⟨t, ht, rfl⟩ := step_complete h
      exact hp.complete ht id response
  | cleanup j =>
      obtain ⟨t, ht, -, rfl⟩ := step_cleanup h
      refine hp.prune hconsistent ht (.inr fun k c hc hmem hwaits ↦ ?_)
      obtain ⟨id, entry, hlookup, hstale, rfl⟩ := PendingRequests.mem_dropped.mp hmem
      obtain ⟨d, hd, -, -, hcreated, -⟩ := hconsistent.entry j id entry
        ((findEntry_of_table ht id).trans hlookup)
      obtain rfl := Option.some.inj (hc.symm.trans hd)
      rw [fresh_of_stillWaiting (hfits _ c hc) hwaits hcreated] at hstale
      cases hstale
  | drop j =>
      obtain ⟨t, ht, rfl⟩ := step_drop h
      exact hp.prune hconsistent ht (.inl rfl)
  | advance duration =>
      cases h
      intro k c hk hclosed
      rcases hp k c hk hclosed with hnone | hstopped
      · exact .inl hnone
      · right
        intro hwaits
        apply hstopped
        unfold Call.StillWaiting at hwaits ⊢
        cases hphase : c.phase with
        | sending => trivial
        | waiting deadline =>
            rw [hphase] at hwaits
            exact Nat.lt_of_le_of_lt (Nat.le_add_right p.now duration) hwaits
        | done result =>
            rw [hphase] at hwaits
            exact hwaits
        | gone =>
            rw [hphase] at hwaits
            exact hwaits

/-- What a run in time keeps. -/
structure Sound (p : Pool T) : Prop where
  consistent : p.Consistent
  fits : p.Fits
  closed : p.ClosedLate

theorem sound_empty : (empty : Pool T).Sound where
  consistent := consistent_empty
  fits k c hk := by simp [empty] at hk
  closed k c hk := by simp [empty] at hk

theorem Sound.step (hp : p.Sound) (hok : InTime p input) (h : p.step input = some q) : q.Sound :=
  ⟨hp.consistent.step h, hp.fits.step hok h, hp.closed.step hp.consistent hp.fits h⟩

theorem Sound.run (hp : p.Sound) (hok : Within Pool.step InTime p inputs)
    (h : run Pool.step p inputs = some q) : q.Sound := by
  have hstep : ∀ (p : Pool T) input q, p.Sound → InTime p input → p.step input = some q →
      q.Sound := fun _ _ _ hp hok h ↦ hp.step hok h
  exact run_invariant hstep hp hok h

/-- The receiver of a caller that still waits is open until it is answered, as
long as there is the table. -/
theorem Sound.open_or_answered (hp : p.Sound) (hk : p.calls[k]? = some c)
    (hwaits : c.StillWaiting p.now) (ht : p.table? c.table = some t) :
    c.rx = .empty ∨ ∃ response, (c.requestId, response) ∈ p.answered := by
  cases hrx : c.rx with
  | empty => exact .inl rfl
  | full response => exact .inr ⟨response, hp.consistent.full k c response hk hrx⟩
  | closed =>
      rcases hp.closed k c hk hrx with hnone | hstopped
      · rw [tables_of_table ht] at hnone
        cases hnone
      · exact (hstopped hwaits).elim

/-- In every run a request is answered once and with a response under its own
id.  In the runs that are in time the cleanup takes no entry from a caller that
still waits. -/
theorem answered_once_in_time (inputs : List (PendingInput T)) (p : Pool T)
    (hrun : run step empty inputs = some p) :
    (p.answered.map Prod.fst).Nodup ∧
    (∀ (k : ℕ) c response, p.calls[k]? = some c → c.phase = .done (.ok response) →
      (c.requestId, response) ∈ p.answered ∧
        ∃ j, PendingInput.complete j c.requestId response ∈ inputs) ∧
    (Within step InTime empty inputs →
      ∀ j q, p.step (.cleanup j) = some q → KeepsWaiting p q) := by
  have hp : p.Consistent :=
    run_invariant_of_step (fun _ _ _ hp h ↦ Consistent.step hp h) consistent_empty hrun
  refine ⟨hp.once, fun k c response hk hdone ↦ ?_, fun hok j q hq ↦ ?_⟩
  · have hanswered := hp.full k c response hk (hp.received k c response hk hdone)
    refine ⟨hanswered, ?_⟩
    rcases answered_run hrun c.requestId response hanswered with hnever | hsent
    · cases hnever
    · exact hsent
  · exact keepsWaiting_cleanup hp (sound_empty.run hok hrun).fits hq

theorem answered_once_in_time_command :
    ∃ p q : Pool ℕ, run step empty [.new, .advance (seconds 25),
        .register 0 "a" .sendCommandAndWait, .wait 0, .advance (seconds 5)] = some p ∧
      p.step (.cleanup 0) = some q ∧ KeepsWaiting p q := by
  refine ⟨_, _, rfl, rfl, (answered_once_in_time [.new, .advance (seconds 25),
    .register 0 "a" .sendCommandAndWait, .wait 0, .advance (seconds 5)] _ rfl).2.2 ?_ 0 _ rfl⟩
  refine .cons trivial rfl (.cons ?_ rfl (.cons ?_ rfl (.cons trivial rfl (.cons ?_ rfl
    (within_nil _)))))
  · intro c hc
    cases hc
  · have hbound : seconds 10 ≤ STALE_REQUEST_TIMEOUT := by decide
    exact hbound
  · intro c hc hsending
    obtain rfl := List.mem_singleton.mp hc
    cases hsending

/-- The cleanup drops the request of a software update after one minute. -/
theorem not_keepsWaiting_softwareUpdate :
    ∃ p q : Pool ℕ, run step empty [.new, .register 0 "a" .sendSoftwareUpdate, .wait 0,
        .advance (seconds 30), .cleanup 0, .advance (seconds 30)] = some p ∧
      p.step (.cleanup 0) = some q ∧ ¬ KeepsWaiting p q := by
  refine ⟨_, _, rfl, rfl, fun hkeeps ↦ ?_⟩
  have hwaits : seconds 60 < seconds 120 := by decide
  have hkept := hkeeps 0 _ ⟨0, 0⟩ rfl hwaits rfl
  cases hkept

end Oxiproxy.Pool
