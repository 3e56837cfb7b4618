import Oxiproxy.Foundation.Runs

/-!
# The certificate of a node

A node keeps its certificate and its private key in two cells with a lock each.
An update writes first the one and then the other.  The QUIC listener reads both
when it starts, and uses what it has read until it stops.
-/

namespace Oxiproxy.Node

open Transition

variable {C K : Type}

inductive UpdateStage
  | parsed
  | certWritten
  | done
  deriving DecidableEq

/-- A call of `update_certificate` whose texts could be parsed. -/
structure CertificateUpdate (C K : Type) where
  newCert : C
  newKey : K
  stage : UpdateStage

/-- A call of `run`. -/
inductive QuicListener (C K : Type)
  | starting
  | certRead (cert : C)
  | running (cert : C) (key : K)
  | closed

/-- An accepted connection, with the update that had completed last. -/
structure QuicConnection (C K : Type) where
  offered : C × K
  updated : Option (C × K)

inductive CertificateInput (C K : Type)
  /-- `update_certificate` is called; nothing if a text cannot be parsed. -/
  | updateCertificate (parsed : Option (C × K))
  | writeCert (update : ℕ)
  /-- The second write, after which the update returns success. -/
  | writeKey (update : ℕ)
  /-- The node reconnects and receives a certificate. -/
  | reconnect (certificate : Option (C × K))
  | run
  | readCert (listener : ℕ)
  /-- The key is read, and the endpoint is made if the address can be bound. -/
  | readKey (listener : ℕ) (bound : Bool)
  | accept (listener : ℕ)
  | abort (listener : ℕ)

structure CertificateCells (C K : Type) where
  cert : C
  key : K
  updates : List (CertificateUpdate C K)
  /-- The pairs of the updates that have returned success, the last one first. -/
  completed : List (C × K)
  listeners : List (QuicListener C K)
  connections : List (QuicConnection C K)

namespace CertificateCells

/-- After `ProxyServer::new`. -/
def new (pair : C × K) : CertificateCells C K := ⟨pair.1, pair.2, [], [], [], []⟩

def setStage (s : CertificateCells C K) (i : ℕ) (stage : UpdateStage) : CertificateCells C K :=
  { s with updates := s.updates.modify i fun u ↦ { u with stage := stage } }

def setListener (s : CertificateCells C K) (j : ℕ) (l : QuicListener C K) :
    CertificateCells C K :=
  { s with listeners := s.listeners.set j l }

/-- `withSingleCert` tells whether rustls takes a certificate with a key. -/
def step (withSingleCert : C → K → Bool) (s : CertificateCells C K) :
    CertificateInput C K → Option (CertificateCells C K)
  | .updateCertificate parsed =>
      match parsed with
      | some (newCert, newKey) => some { s with updates := s.updates ++ [⟨newCert, newKey, .parsed⟩] }
      | none => some s
  | .writeCert i => do
      let u ← s.updates[i]?
      match u.stage with
      | .parsed => some { s.setStage i .certWritten with cert := u.newCert }
      | _ => none
  | .writeKey i => do
      let u ← s.updates[i]?
      match u.stage with
      | .certWritten => some { s.setStage i .done with
          key := u.newKey
          completed := (u.newCert, u.newKey) :: s.completed }
      | _ => none
  -- a certificate that comes with a reconnect is only reported
  | .reconnect _ => some s
  | .run => some { s with listeners := s.listeners ++ [.starting] }
  | .readCert j => do
      let l ← s.listeners[j]?
      match l with
      | .starting => some (s.setListener j (.certRead s.cert))
      | _ => none
  | .readKey j bound => do
      let l ← s.listeners[j]?
      match l with
      | .certRead cert =>
          if withSingleCert cert s.key ∧ bound then some (s.setListener j (.running cert s.key))
          else some (s.setListener j .closed)
      | _ => none
  | .accept j => do
      let l ← s.listeners[j]?
      match l with
      | .running cert key => some { s with
          connections := s.connections ++ [⟨(cert, key), s.completed.head?⟩] }
      | _ => none
  | .abort j => do
      let _ ← s.listeners[j]?
      some (s.setListener j .closed)

/-! ## What is promised -/

/-- The pair of the update that completed last, or the first one. -/
def latest (first : C × K) (s : CertificateCells C K) : C × K := s.completed.headD first

/-- The pairs that have been given to the node. -/
def Given (first : C × K) (s : CertificateCells C K) (pair : C × K) : Prop :=
  pair = first ∨ ∃ u ∈ s.updates, pair = (u.newCert, u.newKey)

structure RolledOver (first : C × K) (s : CertificateCells C K) : Prop where
  offered : ∀ connection ∈ s.connections, ∀ pair, connection.updated = some pair →
    connection.offered = pair
  configured : ∀ cert key, .running cert key ∈ s.listeners → s.Given first (cert, key)

/-- An update has written its certificate and not yet its key. -/
def Between (s : CertificateCells C K) : Prop := ∃ u ∈ s.updates, u.stage = .certWritten

/-- A listener has read the certificate. -/
def Live (s : CertificateCells C K) : Prop :=
  ∃ l ∈ s.listeners, (∃ cert, l = .certRead cert) ∨ ∃ cert key, l = .running cert key

/-- The two writes of an update are not torn by another update or by a listener
that starts, and no listener runs, or is about to, when an update completes. -/
def Apart (s : CertificateCells C K) : CertificateInput C K → Prop
  | .writeCert _ | .readCert _ => ¬ s.Between
  | .writeKey _ => ¬ s.Live
  | _ => True

/-! ## Runs whose steps are apart -/

/-- The cells and the listeners have the latest pair, except that an update may
have written its certificate already. -/
structure Kept (first : C × K) (s : CertificateCells C K) : Prop where
  key : s.key = (s.latest first).2
  cert : ¬ s.Between → s.cert = (s.latest first).1
  between : ∀ (i : ℕ) u, s.updates[i]? = some u → u.stage = .certWritten → s.cert = u.newCert
  one : ∀ (i i' : ℕ) u u', s.updates[i]? = some u → u.stage = .certWritten →
    s.updates[i']? = some u' → u'.stage = .certWritten → i = i'
  read : ∀ cert, .certRead cert ∈ s.listeners → cert = (s.latest first).1
  running : ∀ cert key, .running cert key ∈ s.listeners → (cert, key) = s.latest first
  completed : ∀ pair ∈ s.completed, s.Given first pair
  offered : ∀ connection ∈ s.connections, ∀ pair, connection.updated = some pair →
    connection.offered = pair

variable {withSingleCert : C → K → Bool} {first : C × K} {s t : CertificateCells C K}
  {input : CertificateInput C K} {i j : ℕ}

theorem Kept.given_latest (hs : s.Kept first) : s.Given first (s.latest first) := by
  unfold latest
  cases hcompleted : s.completed with
  | nil => exact .inl rfl
  | cons pair rest => exact hs.completed pair (by rw [hcompleted]; exact List.mem_cons_self)

theorem Kept.rolledOver (hs : s.Kept first) : s.RolledOver first where
  offered := hs.offered
  configured cert key hmem := by
    rw [hs.running cert key hmem]
    exact hs.given_latest

theorem kept_new (first : C × K) : (new first).Kept first where
  key := rfl
  cert _ := rfl
  between i u h := by cases h
  one i i' u u' h := by cases h
  read cert h := by cases h
  running cert key h := by cases h
  completed pair h := by cases h
  offered connection h := by cases h

theorem updates_setStage (s : CertificateCells C K) (i i' : ℕ) (stage : UpdateStage) :
    (s.setStage i stage).updates[i']? =
      (s.updates[i']?).map fun u ↦ if i = i' then { u with stage := stage } else u := by
  simp only [setStage, List.getElem?_modify]
  rfl

theorem given_setStage {pair : C × K} (h : s.Given first pair) (i : ℕ) (stage : UpdateStage) :
    (s.setStage i stage).Given first pair := by
  rcases h with hfirst | ⟨u, hu, hpair⟩
  · exact .inl hfirst
  · obtain ⟨i', hi'⟩ := List.mem_iff_getElem?.mp hu
    have hget := updates_setStage s i i' stage
    rw [hi', Option.map_some] at hget
    refine .inr ⟨_, List.mem_of_getElem? hget, ?_⟩
    rw [hpair]
    split_ifs <;> rfl

theorem Kept.updateCertificate (hs : s.Kept first) (u : CertificateUpdate C K)
    (hu : u.stage = .parsed) : Kept first { s with updates := s.updates ++ [u] } := by
  have hold : ∀ (i : ℕ) v, (s.updates ++ [u])[i]? = some v → v.stage = .certWritten →
      s.updates[i]? = some v := by
    intro i v hi hstage
    rcases Nat.lt_or_ge i s.updates.length with hlt | hge
    · rwa [List.getElem?_append_left hlt] at hi
    · rw [List.getElem?_append_right hge] at hi
      obtain rfl := List.mem_singleton.mp (List.mem_of_getElem? hi)
      rw [hu] at hstage
      cases hstage
  refine ⟨hs.key, fun hnot ↦ hs.cert fun ⟨v, hv, hstage⟩ ↦ ?_, ?_, ?_, hs.read, hs.running, ?_,
    hs.offered⟩
  · exact hnot ⟨v, List.mem_append_left _ hv, hstage⟩
  · exact fun i v hi hstage ↦ hs.between i v (hold i v hi hstage) hstage
  · exact fun i i' v v' hi hv hi' hv' ↦ hs.one i i' v v' (hold i v hi hv) hv (hold i' v' hi' hv') hv'
  · intro pair hpair
    rcases hs.completed pair hpair with hfirst | ⟨v, hv, hpair⟩
    · exact .inl hfirst
    · exact .inr ⟨v, List.mem_append_left _ hv, hpair⟩

theorem Kept.writeCert (hs : s.Kept first) {u : CertificateUpdate C K}
    (hi : s.updates[i]? = some u) (hapart : ¬ s.Between) :
    Kept first { s.setStage i .certWritten with cert := u.newCert } := by
  have hwritten : ∀ (i' : ℕ) v, (s.setStage i .certWritten).updates[i']? = some v →
      v.stage = .certWritten → i = i' ∧ v.newCert = u.newCert := by
    intro i' v hv hstage
    rw [updates_setStage, Option.map_eq_some_iff] at hv
    obtain ⟨w, hw, rfl⟩ := hv
    split_ifs at hstage ⊢ with hsame
    · subst hsame
      obtain rfl := Option.some.inj (hi.symm.trans hw)
      exact ⟨rfl, rfl⟩
    · exact (hapart ⟨w, List.mem_of_getElem? hw, hstage⟩).elim
  refine ⟨hs.key, fun hnot ↦ (hnot ?_).elim, ?_, ?_, hs.read, hs.running, ?_, hs.offered⟩
  · refine ⟨{ u with stage := .certWritten }, List.mem_of_getElem? (i := i) ?_, rfl⟩
    have hget := updates_setStage s i i .certWritten
    rwa [hi, Option.map_some, if_pos rfl] at hget
  · exact fun i' v hv hstage ↦ (hwritten i' v hv hstage).2.symm
  · intro i' i'' v v' hv hstage hv' hstage'
    exact (hwritten i' v hv hstage).1.symm.trans (hwritten i'' v' hv' hstage').1
  · exact fun pair hpair ↦ given_setStage (hs.completed pair hpair) i .certWritten

theorem Kept.writeKey (hs : s.Kept first) {u : CertificateUpdate C K}
    (hi : s.updates[i]? = some u) (hstage : u.stage = .certWritten) (hapart : ¬ s.Live) :
    Kept first { s.setStage i .done with
      key := u.newKey, completed := (u.newCert, u.newKey) :: s.completed } := by
  have hnone : ∀ (i' : ℕ) v, (s.setStage i .done).updates[i']? = some v →
      v.stage ≠ .certWritten := by
    intro i' v hv hwritten
    rw [updates_setStage, Option.map_eq_some_iff] at hv
    obtain ⟨w, hw, rfl⟩ := hv
    split_ifs at hwritten with hsame
    exact hsame (hs.one i i' u w hi hstage hw hwritten)
  refine ⟨rfl, fun _ ↦ hs.between i u hi hstage, fun i' v hv hwritten ↦ ?_, ?_, ?_, ?_, ?_,
    hs.offered⟩
  · exact (hnone i' v hv hwritten).elim
  · exact fun i' i'' v v' hv hwritten ↦ (hnone i' v hv hwritten).elim
  · exact fun cert hmem ↦ (hapart ⟨_, hmem, .inl ⟨cert, rfl⟩⟩).elim
  · exact fun cert key hmem ↦ (hapart ⟨_, hmem, .inr ⟨cert, key, rfl⟩⟩).elim
  · intro pair hpair
    rcases List.mem_cons.mp hpair with rfl | hold
    · exact given_setStage (s := s) (.inr ⟨u, List.mem_of_getElem? hi, rfl⟩) i .done
    · exact given_setStage (hs.completed pair hold) i .done

/-- A listener goes on with the latest pair, or with nothing. -/
theorem Kept.setListener (hs : s.Kept first) {l : QuicListener C K}
    (hread : ∀ cert, l = .certRead cert → cert = (s.latest first).1)
    (hrunning : ∀ cert key, l = .running cert key → (cert, key) = s.latest first) :
    (s.setListener j l).Kept first := by
  refine ⟨hs.key, hs.cert, hs.between, hs.one, fun cert hmem ↦ ?_, fun cert key hmem ↦ ?_,
    hs.completed, hs.offered⟩
  · rcases List.mem_or_eq_of_mem_set hmem with hold | hnew
    · exact hs.read cert hold
    · exact hread cert hnew.symm
  · rcases List.mem_or_eq_of_mem_set hmem with hold | hnew
    · exact hs.running cert key hold
    · exact hrunning cert key hnew.symm

theorem Kept.step (hs : s.Kept first) (hok : s.Apart input)
    (h : s.step withSingleCert input = some t) : t.Kept first := by
  cases input with
  | updateCertificate parsed =>
      cases parsed with
      | none =>
          cases h
          exact hs
      | some pair =>
          cases h
          exact hs.updateCertificate ⟨pair.1, pair.2, .parsed⟩ rfl
  | writeCert i =>
      obtain ⟨u, hi, hrest⟩ := Option.bind_eq_some_iff.mp h
      split at hrest
      · cases hrest
        exact hs.writeCert hi hok
      · cases hrest
  | writeKey i =>
      obtain ⟨u, hi, hrest⟩ := Option.bind_eq_some_iff.mp h
      split at hrest
      · next hstage =>
          cases hrest
          exact hs.writeKey hi hstage hok
      · cases hrest
  | reconnect certificate =>
      cases h
      exact hs
  | run =>
      cases h
      refine ⟨hs.key, hs.cert, hs.between, hs.one, fun cert hmem ↦ ?_, fun cert key hmem ↦ ?_,
        hs.completed, hs.offered⟩
      · rcases List.mem_append.mp hmem with hold | hnew
        · exact hs.read cert hold
        · cases List.mem_singleton.mp hnew
      · rcases List.mem_append.mp hmem with hold | hnew
        · exact hs.running cert key hold
        · cases List.mem_singleton.mp hnew
  | readCert j =>
      obtain ⟨l, -, hrest⟩ := Option.bind_eq_some_iff.mp h
      split at hrest
      · cases hrest
        refine hs.setListener (fun cert hcert ↦ ?_) fun _ _ hrunning ↦ by cases hrunning
        cases hcert
        exact hs.cert hok
      · cases hrest
  | readKey j bound =>
      obtain ⟨l, hl, hrest⟩ := Option.bind_eq_some_iff.mp h
      split at hrest
      · next cert =>
          split_ifs at hrest
          · cases hrest
            refine hs.setListener (fun _ hread ↦ by cases hread) fun cert' key hrunning ↦ ?_
            cases hrunning
            rw [hs.read cert (List.mem_of_getElem? hl), hs.key]
          · cases hrest
            exact hs.setListener (fun _ hread ↦ by cases hread) fun _ _ hrunning ↦ by cases hrunning
      · cases hrest
  | accept j =>
      obtain ⟨l, hl, hrest⟩ := Option.bind_eq_some_iff.mp h
      split at hrest
      · next cert key =>
          cases hrest
          refine ⟨hs.key, hs.cert, hs.between, hs.one, hs.read, hs.running, hs.completed, ?_⟩
          intro connection hmem pair hupdated
          rcases List.mem_append.mp hmem with hold | hnew
          · exact hs.offered connection hold pair hupdated
          · obtain rfl := List.mem_singleton.mp hnew
            have hoffered := hs.running cert key (List.mem_of_getElem? hl)
            obtain ⟨rest, hcompleted⟩ := List.head?_eq_some_iff.mp hupdated
            rwa [latest, hcompleted] at hoffered
      · cases hrest
  | abort j =>
      obtain ⟨l, -, hrest⟩ := Option.bind_eq_some_iff.mp h
      cases hrest
      exact hs.setListener (fun _ hread ↦ by cases hread) fun _ _ hrunning ↦ by cases hrunning

/-- A listener that runs when an update completes goes on with the pair before. -/
theorem Kept.latest_of_rolledOver (hs : s.Kept first) {u : CertificateCells C K}
    (hwrite : s.step withSingleCert (.writeKey i) = some t)
    (haccept : t.step withSingleCert (.accept j) = some u) (hu : u.RolledOver first) :
    t.latest first = s.latest first := by
  obtain ⟨update, -, hrest⟩ := Option.bind_eq_some_iff.mp hwrite
  split at hrest
  · cases hrest
    obtain ⟨l, hl, hrest⟩ := Option.bind_eq_some_iff.mp haccept
    split at hrest
    · next cert key =>
        cases hrest
        rw [← hs.running cert key (List.mem_of_getElem? hl)]
        exact (hu.offered ⟨(cert, key), some (update.newCert, update.newKey)⟩
          (List.mem_append_right _ (List.mem_singleton_self _)) _ rfl).symm
    · cases hrest
  · cases hrest

/-- In every run whose steps are apart, connections get the pair of the latest
update, and no listener has a mixed pair.  When an update completes after such a
run and a listener accepts a connection next, this remains so only if the update
has brought the pair that was there before. -/
theorem certificates_roll_over (withSingleCert : C → K → Bool) (first : C × K)
    (inputs : List (CertificateInput C K)) (s : CertificateCells C K)
    (hrun : run (step withSingleCert) (new first) inputs = some s)
    (hok : Within (step withSingleCert) Apart (new first) inputs) :
    s.RolledOver first ∧ ∀ i j t u, s.step withSingleCert (.writeKey i) = some t →
      t.step withSingleCert (.accept j) = some u → u.RolledOver first →
        t.latest first = s.latest first := by
  have hstep : ∀ (s : CertificateCells C K) input t, s.Kept first → s.Apart input →
      s.step withSingleCert input = some t → t.Kept first := fun _ _ _ hs hok h ↦ hs.step hok h
  have hs : s.Kept first := run_invariant hstep (kept_new first) hok hrun
  exact ⟨hs.rolledOver, fun i j t u hwrite haccept hu ↦ hs.latest_of_rolledOver hwrite haccept hu⟩

/-- An update before the listener starts. -/
theorem certificates_roll_over_start :
    ∃ s : CertificateCells ℕ ℕ, run (step fun cert key ↦ cert == key) (new (1, 1))
        [.updateCertificate (some (2, 2)), .writeCert 0, .writeKey 0, .run, .readCert 0,
          .readKey 0 true, .accept 0] = some s ∧
      s.connections.map QuicConnection.offered = [(2, 2)] ∧ s.RolledOver (1, 1) := by
  refine ⟨_, rfl, rfl, (certificates_roll_over (fun cert key ↦ cert == key) (1, 1)
    [.updateCertificate (some (2, 2)), .writeCert 0, .writeKey 0, .run, .readCert 0,
      .readKey 0 true, .accept 0] _ rfl ?_).1⟩
  refine .cons trivial rfl (.cons ?_ rfl (.cons ?_ rfl (.cons trivial rfl (.cons ?_ rfl
    (.cons trivial rfl (.cons trivial rfl (within_nil _)))))))
  · rintro ⟨u, hu, hstage⟩
    obtain rfl := List.mem_singleton.mp hu
    cases hstage
  · rintro ⟨l, hl, -⟩
    cases hl
  · rintro ⟨u, hu, hstage⟩
    obtain rfl := List.mem_singleton.mp hu
    cases hstage

/-- An update while the listener runs. -/
theorem not_rolledOver_running :
    ∃ s : CertificateCells ℕ ℕ, run (step fun cert key ↦ cert == key) (new (1, 1))
        [.run, .readCert 0, .readKey 0 true, .updateCertificate (some (2, 2)), .writeCert 0,
          .writeKey 0, .accept 0] = some s ∧ ¬ s.RolledOver (1, 1) := by
  refine ⟨_, rfl, fun hs ↦ ?_⟩
  have hoffered := hs.offered ⟨(1, 1), some (2, 2)⟩ (List.mem_singleton_self _) (2, 2) rfl
  cases hoffered

end CertificateCells

end Oxiproxy.Node
