import Oxiproxy.Controller.Entity
import Oxiproxy.Foundation.HashMap
import Oxiproxy.Foundation.Runs

/-!
# Session registries

The node manager and the client stream manager keep the streams of the sessions
that are connected, one for each owner.  Registering and removing a stream hold
the lock of the registry for writing, also while they write the status of the
owner to the database; the periodic synchronisation holds it for reading, anew
for each row.
-/

namespace Oxiproxy.Controller

open Transition

/-- The status an operation writes while it holds the lock. -/
structure StatusWrite where
  owner : ℤ
  online : Bool
  deriving DecidableEq

/-- A synchronisation, with the owners that are still to be done. -/
structure StatusSync where
  owners : List ℤ
  write : Option StatusWrite
  deriving DecidableEq

/-- The columns of an owner that a registry writes. -/
structure StatusColumns (ρ : Type*) [Keyed ℤ ρ] where
  isOnline : ρ → Bool
  set : Bool → NaiveDateTime → ρ → ρ
  key_set : ∀ online now row, key (set online now row) = key row
  isOnline_set : ∀ online now row, isOnline (set online now row) = online

/-- Streams are known by the channel they send on. -/
structure SessionRegistry (ρ : Type*) [Keyed ℤ ρ] where
  streams : AList fun _ : ℤ ↦ ℕ
  closed : List ℕ
  rows : Table ρ
  /-- The operation that holds the lock for writing. -/
  writer : Option StatusWrite
  syncs : List StatusSync
  /-- The sessions that were registered, the last one first. -/
  sessions : List (ℤ × ℕ)

inductive RegistryInput
  | register (owner : ℤ) (tx : ℕ)
  | unregister (owner : ℤ) (tx : ℕ)
  | persist (ok : Bool) (now : NaiveDateTime)
  | close (tx : ℕ)
  | startSync
  | syncRead (k : ℕ)
  | syncPersist (k : ℕ) (ok : Bool) (now : NaiveDateTime)

namespace SessionRegistry

section Model

variable {ρ : Type*} [Keyed ℤ ρ] (c : StatusColumns ρ) (s : SessionRegistry ρ)

/-- A registered stream of the owner has an open channel. -/
def hasOpenStream (owner : ℤ) : Bool :=
  (s.streams.lookup owner).any fun tx ↦ decide (tx ∉ s.closed)

/-- Nobody holds the lock. -/
def Unlocked : Prop := s.writer = none ∧ ∀ sync ∈ s.syncs, sync.write = none

instance : Decidable s.Unlocked := inferInstanceAs (Decidable (_ ∧ _))

def register (owner : ℤ) (tx : ℕ) : SessionRegistry ρ :=
  { s with
    streams := s.streams.insert owner tx
    sessions := (owner, tx) :: s.sessions
    writer := some ⟨owner, true⟩ }

def unregister (owner : ℤ) (tx : ℕ) : SessionRegistry ρ :=
  if s.streams.lookup owner = some tx then
    { s with streams := s.streams.erase owner, writer := some ⟨owner, false⟩ }
  else s

def persistOnlineStatus (w : StatusWrite) (ok : Bool) (now : NaiveDateTime) : Table ρ :=
  if ok then s.rows.modify w.owner (c.set w.online now) (c.key_set w.online now) else s.rows

def step : RegistryInput → Option (SessionRegistry ρ)
  | .register owner tx =>
      if s.Unlocked ∧ tx ∉ s.closed ∧ tx ∉ s.sessions.map Prod.snd then some (s.register owner tx)
      else none
  | .unregister owner tx => if s.Unlocked then some (s.unregister owner tx) else none
  | .persist ok now =>
      match s.writer with
      | some w => some { s with rows := s.persistOnlineStatus c w ok now, writer := none }
      | none => none
  | .close tx => some { s with closed := tx :: s.closed }
  | .startSync => some { s with syncs := s.syncs ++ [⟨s.rows.rows.map key, none⟩] }
  | .syncRead k =>
      match s.syncs[k]?, s.writer with
      | some ⟨owner :: owners, none⟩, none =>
          some { s with syncs := s.syncs.set k ⟨owners, some ⟨owner, s.hasOpenStream owner⟩⟩ }
      | _, _ => none
  | .syncPersist k ok now =>
      match s.syncs[k]? with
      | some ⟨owners, some w⟩ =>
          -- a failed write, also one that finds no row, ends the synchronisation
          let owners := if ok && (s.rows.find w.owner).isSome then owners else []
          some { s with
            rows := s.persistOnlineStatus c w ok now
            syncs := s.syncs.set k ⟨owners, none⟩ }
      | _ => none

def start (rows : Table ρ) : SessionRegistry ρ := ⟨∅, [], rows, none, [], []⟩

/-- A session of the owner after which another one was registered. -/
def Superseded (owner : ℤ) (tx : ℕ) : Prop :=
  ∃ newer, [(owner, newer), (owner, tx)].Sublist s.sessions

end Model

section Runs

variable {ρ : Type*} [Keyed ℤ ρ] {c : StatusColumns ρ} {s t : SessionRegistry ρ} {i : RegistryInput}

/-- The stream of an owner is that of its last session. -/
structure Inv (s : SessionRegistry ρ) : Prop where
  newest : ∀ owner tx, s.streams.lookup owner = some tx →
    s.sessions.find? (·.1 = owner) = some (owner, tx)
  nodup : (s.sessions.map Prod.snd).Nodup

theorem Inv.start (rows : Table ρ) : Inv (start rows) where
  newest owner tx h := by
    rw [SessionRegistry.start, AList.lookup_empty] at h
    cases h
  nodup := List.nodup_nil

theorem Inv.register (hs : Inv s) {owner : ℤ} {tx : ℕ} (hnew : tx ∉ s.sessions.map Prod.snd) :
    Inv (s.register owner tx) where
  newest other tx' h := by
    simp only [SessionRegistry.register, AList.lookup_insert_eq_ite] at h ⊢
    by_cases hother : other = owner
    · rw [if_pos hother] at h
      cases h
      rw [hother, List.find?_cons_of_pos (by simp)]
    · rw [if_neg hother] at h
      rw [List.find?_cons_of_neg (by simpa using Ne.symm hother)]
      exact hs.newest other tx' h
  nodup := List.nodup_cons.mpr ⟨hnew, hs.nodup⟩

theorem Inv.unregister (hs : Inv s) (owner : ℤ) (tx : ℕ) : Inv (s.unregister owner tx) := by
  unfold SessionRegistry.unregister
  split_ifs with htx
  · refine ⟨fun other tx' h ↦ ?_, hs.nodup⟩
    simp only [AList.lookup_erase_eq_ite] at h
    split_ifs at h
    exact hs.newest other tx' h
  · exact hs

theorem Inv.step (hs : Inv s) (hstep : step c s i = some t) : Inv t := by
  cases i with
  | register owner tx =>
      simp only [SessionRegistry.step] at hstep
      split_ifs at hstep with hfree
      cases hstep
      exact hs.register hfree.2.2
  | unregister owner tx =>
      simp only [SessionRegistry.step] at hstep
      split_ifs at hstep
      cases hstep
      exact hs.unregister owner tx
  | persist | syncRead | syncPersist =>
      simp only [SessionRegistry.step] at hstep
      split at hstep <;> cases hstep
      exact ⟨hs.newest, hs.nodup⟩
  | close | startSync =>
      cases hstep
      exact ⟨hs.newest, hs.nodup⟩

/-- A stream that has been replaced is not the registered one. -/
theorem Superseded.lookup_ne {owner : ℤ} {tx : ℕ} (hs : Inv s) (hold : s.Superseded owner tx) :
    s.streams.lookup owner ≠ some tx := by
  intro hlookup
  obtain ⟨newer, hsub⟩ := hold
  obtain ⟨-, before, after, hsessions, hbefore⟩ :=
    List.find?_eq_some_iff_append.mp (hs.newest owner tx hlookup)
  have hnodup := hs.nodup
  rw [hsessions] at hsub hnodup
  -- nothing of the owner is registered before its first entry
  have hnone : ∀ tx', (owner, tx') ∉ before := fun tx' hmem ↦ by simpa using hbefore _ hmem
  have hsub : [(owner, newer), (owner, tx)].Sublist ((owner, tx) :: after) := by
    rcases List.sublist_append_iff.mp hsub with ⟨l₁, l₂, hl, h₁, h₂⟩
    cases l₁ with
    | nil =>
        rw [hl]
        exact h₂
    | cons e l₁ =>
        obtain ⟨rfl, -⟩ := List.cons.inj hl
        exact (hnone newer (h₁.subset List.mem_cons_self)).elim
  have hmem : (owner, tx) ∈ after := by
    have htail := hsub.tail
    exact htail.subset List.mem_cons_self
  rw [List.map_append, List.map_cons, List.nodup_append] at hnodup
  exact (List.nodup_cons.mp hnodup.2.1).1 (List.mem_map_of_mem hmem)

theorem find_persistOnlineStatus (w : StatusWrite) (ok : Bool) (now : NaiveDateTime) (id : ℤ) :
    (s.persistOnlineStatus c w ok now).find id =
      if ok = true ∧ id = w.owner then (s.rows.find id).map (c.set w.online now)
      else s.rows.find id := by
  unfold persistOnlineStatus
  cases ok with
  | false => simp
  | true => simp [Table.find_modify]

/-- After a successful write the flag of the owner is what was written. -/
theorem isOnline_persistOnlineStatus {w : StatusWrite} {now : NaiveDateTime} {row : ρ}
    (h : (s.persistOnlineStatus c w true now).find w.owner = some row) :
    c.isOnline row = w.online := by
  rw [find_persistOnlineStatus, if_pos ⟨rfl, rfl⟩] at h
  obtain ⟨old, -, rfl⟩ := Option.map_eq_some_iff.mp h
  exact c.isOnline_set w.online now old

/-- An operation on an owner has been at the registry.  Whatever happens until its
write to the database, this write can be made, and after it the flag of the owner
says whether an open stream was registered when the operation was there. -/
def Persists (c : StatusColumns ρ) (t : SessionRegistry ρ) (owner : ℤ)
    (write : Bool → NaiveDateTime → RegistryInput) : Prop :=
  ∀ inputs u now, (∀ ok now, write ok now ∉ inputs) → run (step c) t inputs = some u →
    ∃ v, step c u (write true now) = some v ∧
      ∀ row, v.rows.find owner = some row → c.isOnline row = t.hasOpenStream owner

/-- What holds of a step of a registry: an older session cannot remove the stream of
a newer one, the flag follows every operation, and rows change by `same` only. -/
structure Followed (c : StatusColumns ρ) (same : ρ → ρ → Prop) (s : SessionRegistry ρ)
    (i : RegistryInput) (t : SessionRegistry ρ) : Prop where
  stale : ∀ owner tx, i = .unregister owner tx → s.Superseded owner tx → t = s
  registered : ∀ owner tx, i = .register owner tx →
    t.streams.lookup owner = some tx ∧ Persists c t owner .persist
  unregistered : ∀ owner tx, i = .unregister owner tx → s.streams.lookup owner = some tx →
    t.streams.lookup owner = none ∧ Persists c t owner .persist
  synced : ∀ k owner owners, i = .syncRead k → s.syncs[k]? = some ⟨owner :: owners, none⟩ →
    t.streams = s.streams ∧ Persists c t owner (.syncPersist k)
  columns : ∀ id, Option.Rel same (s.rows.find id) (t.rows.find id)

/-- An operation holds the lock for writing, and no synchronisation holds it. -/
def Writing (s : SessionRegistry ρ) (w : StatusWrite) : Prop :=
  s.writer = some w ∧ ∀ sync ∈ s.syncs, sync.write = none

/-- The lock is held until the write. -/
theorem Writing.step {w : StatusWrite} (hs : s.Writing w) (hi : ∀ ok now, i ≠ .persist ok now)
    (hstep : SessionRegistry.step c s i = some t) : t.Writing w := by
  obtain ⟨hwriter, hsyncs⟩ := hs
  have hlocked : ¬ s.Unlocked := by
    rintro ⟨hnone, -⟩
    rw [hwriter] at hnone
    cases hnone
  cases i with
  | register owner tx =>
      rw [SessionRegistry.step, if_neg fun h ↦ hlocked h.1] at hstep
      cases hstep
  | unregister owner tx =>
      rw [SessionRegistry.step, if_neg hlocked] at hstep
      cases hstep
  | persist ok now => exact absurd rfl (hi ok now)
  | close =>
      cases hstep
      exact ⟨hwriter, hsyncs⟩
  | startSync =>
      cases hstep
      refine ⟨hwriter, fun sync hsync ↦ ?_⟩
      rcases List.mem_append.mp hsync with hmem | hmem
      · exact hsyncs sync hmem
      · rw [List.mem_singleton.mp hmem]
  | syncRead k =>
      simp only [SessionRegistry.step] at hstep
      split at hstep
      · next hnone =>
          rw [hwriter] at hnone
          cases hnone
      · cases hstep
  | syncPersist k ok now =>
      simp only [SessionRegistry.step] at hstep
      split at hstep
      · next hsync =>
          have hnone := hsyncs _ (List.mem_of_getElem? hsync)
          cases hnone
      · cases hstep

theorem Writing.persists {w : StatusWrite} (hs : s.Writing w)
    (hopen : s.hasOpenStream w.owner = w.online) : Persists c s w.owner .persist := by
  intro inputs u now hinputs hrun
  have hstep : ∀ s i t, Writing s w → (∀ ok now, i ≠ .persist ok now) →
      SessionRegistry.step c s i = some t → Writing t w := fun _ _ _ h hi hstep ↦ h.step hi hstep
  have hu : u.Writing w := run_invariant hstep hs
    (within_of_forall fun i hi _ ok now heq ↦ hinputs ok now (heq ▸ hi)) hrun
  refine ⟨{ u with rows := u.persistOnlineStatus c w true now, writer := none }, ?_, ?_⟩
  · simp only [SessionRegistry.step, hu.1]
  · intro row hrow
    rw [hopen]
    exact isOnline_persistOnlineStatus hrow

/-- A synchronisation holds the lock for reading. -/
def Syncing (s : SessionRegistry ρ) (k : ℕ) (sync : StatusSync) : Prop :=
  s.writer = none ∧ s.syncs[k]? = some sync ∧ sync.write ≠ none

theorem Syncing.step {k : ℕ} {sync : StatusSync} (hs : s.Syncing k sync)
    (hi : ∀ ok now, i ≠ .syncPersist k ok now) (hstep : SessionRegistry.step c s i = some t) :
    t.Syncing k sync := by
  obtain ⟨hwriter, hsync, hwrite⟩ := hs
  have hlocked : ¬ s.Unlocked := fun h ↦ hwrite (h.2 sync (List.mem_of_getElem? hsync))
  cases i with
  | register owner tx =>
      rw [SessionRegistry.step, if_neg fun h ↦ hlocked h.1] at hstep
      cases hstep
  | unregister owner tx =>
      rw [SessionRegistry.step, if_neg hlocked] at hstep
      cases hstep
  | persist ok now =>
      simp only [SessionRegistry.step, hwriter] at hstep
      cases hstep
  | close =>
      cases hstep
      exact ⟨hwriter, hsync, hwrite⟩
  | startSync =>
      cases hstep
      refine ⟨hwriter, ?_, hwrite⟩
      rw [List.getElem?_append_left (List.getElem?_eq_some_iff.mp hsync).1]
      exact hsync
  | syncRead j =>
      simp only [SessionRegistry.step] at hstep
      split at hstep <;> cases hstep
      next hother _ =>
        have hne : j ≠ k := by
          rintro rfl
          obtain rfl := Option.some.inj (hsync.symm.trans hother)
          exact hwrite rfl
        refine ⟨hwriter, ?_, hwrite⟩
        rw [List.getElem?_set_ne hne]
        exact hsync
  | syncPersist j ok now =>
      simp only [SessionRegistry.step] at hstep
      split at hstep <;> cases hstep
      have hne : j ≠ k := by
        rintro rfl
        exact hi ok now rfl
      refine ⟨hwriter, ?_, hwrite⟩
      rw [List.getElem?_set_ne hne]
      exact hsync

theorem Syncing.persists {k : ℕ} {owners : List ℤ} {w : StatusWrite}
    (hs : s.Syncing k ⟨owners, some w⟩) (hopen : s.hasOpenStream w.owner = w.online) :
    Persists c s w.owner (.syncPersist k) := by
  intro inputs u now hinputs hrun
  have hstep : ∀ s i t, Syncing s k ⟨owners, some w⟩ → (∀ ok now, i ≠ .syncPersist k ok now) →
      SessionRegistry.step c s i = some t → Syncing t k ⟨owners, some w⟩ :=
    fun _ _ _ h hi hstep ↦ h.step hi hstep
  have hu : u.Syncing k ⟨owners, some w⟩ := run_invariant hstep hs
    (within_of_forall fun i hi _ ok now heq ↦ hinputs ok now (heq ▸ hi)) hrun
  cases hend : SessionRegistry.step c u (.syncPersist k true now) with
  | none =>
      simp only [SessionRegistry.step, hu.2.1] at hend
      cases hend
  | some v =>
      simp only [SessionRegistry.step, hu.2.1] at hend
      cases hend
      refine ⟨_, rfl, fun row hrow ↦ ?_⟩
      rw [hopen]
      exact isOnline_persistOnlineStatus hrow

theorem rel_persistOnlineStatus {same : ρ → ρ → Prop} (hrefl : ∀ row, same row row)
    (hset : ∀ online now row, same row (c.set online now row)) (w : StatusWrite) (ok : Bool)
    (now : NaiveDateTime) (id : ℤ) :
    Option.Rel same (s.rows.find id) ((s.persistOnlineStatus c w ok now).find id) := by
  rw [find_persistOnlineStatus]
  cases hrow : s.rows.find id with
  | none =>
      split_ifs <;> exact .none
  | some row =>
      split_ifs
      · exact .some (hset w.online now row)
      · exact .some (hrefl row)

theorem Inv.followed {same : ρ → ρ → Prop} (hs : Inv s) (hrefl : ∀ row, same row row)
    (hset : ∀ online now row, same row (c.set online now row))
    (hstep : SessionRegistry.step c s i = some t) :
    Followed c same s i t where
  stale owner tx hi hold := by
    subst hi
    simp only [SessionRegistry.step] at hstep
    split_ifs at hstep
    cases hstep
    exact if_neg (hold.lookup_ne hs)
  registered owner tx hi := by
    subst hi
    simp only [SessionRegistry.step] at hstep
    split_ifs at hstep with hfree
    cases hstep
    have hlookup : (s.register owner tx).streams.lookup owner = some tx :=
      AList.lookup_insert s.streams
    have hwriting : (s.register owner tx).Writing ⟨owner, true⟩ := ⟨rfl, hfree.1.2⟩
    refine ⟨hlookup, hwriting.persists (w := ⟨owner, true⟩) ?_⟩
    rw [hasOpenStream, hlookup]
    exact decide_eq_true hfree.2.1
  unregistered owner tx hi hlookup := by
    subst hi
    simp only [SessionRegistry.step, SessionRegistry.unregister, if_pos hlookup] at hstep
    split_ifs at hstep with hfree
    cases hstep
    have hnone : (s.streams.erase owner).lookup owner = none := AList.lookup_erase owner s.streams
    refine ⟨hnone, Writing.persists (w := ⟨owner, false⟩) ⟨rfl, hfree.2⟩ ?_⟩
    simp only [hasOpenStream, hnone, Option.any_none]
  synced k owner owners hi hsync := by
    subst hi
    simp only [SessionRegistry.step, hsync] at hstep
    split at hstep <;> cases hstep
    next heq hnone =>
      obtain ⟨rfl, rfl⟩ : owner = _ ∧ owners = _ := by simpa using heq
      have hk : k < s.syncs.length := (List.getElem?_eq_some_iff.mp hsync).1
      exact ⟨rfl, Syncing.persists (w := ⟨owner, s.hasOpenStream owner⟩)
        ⟨hnone, List.getElem?_set_self hk, by simp⟩ rfl⟩
  columns id := by
    have hsame : t.rows = s.rows → Option.Rel same (s.rows.find id) (t.rows.find id) := by
      intro heq
      rw [heq]
      cases s.rows.find id with
      | none => exact .none
      | some row => exact .some (hrefl row)
    cases i with
    | persist ok now =>
        simp only [SessionRegistry.step] at hstep
        split at hstep <;> cases hstep
        exact rel_persistOnlineStatus hrefl hset _ ok now id
    | syncPersist k ok now =>
        simp only [SessionRegistry.step] at hstep
        split at hstep <;> cases hstep
        exact rel_persistOnlineStatus hrefl hset _ ok now id
    | register owner tx =>
        simp only [SessionRegistry.step] at hstep
        split_ifs at hstep
        cases hstep
        exact hsame rfl
    | unregister owner tx =>
        simp only [SessionRegistry.step] at hstep
        split_ifs at hstep
        cases hstep
        refine hsame ?_
        unfold SessionRegistry.unregister
        split_ifs <;> rfl
    | syncRead k =>
        simp only [SessionRegistry.step] at hstep
        split at hstep <;> cases hstep
        exact hsame rfl
    | close tx | startSync =>
        cases hstep
        exact hsame rfl

end Runs

end SessionRegistry

/-! ## The two managers -/

def nodeStatus : StatusColumns Node where
  isOnline := Node.isOnline
  set online now node :=
    { node with
      isOnline := online
      updatedAt := now
      lastOnlineAt := if online then some now else node.lastOnlineAt }
  key_set _ _ _ := rfl
  isOnline_set _ _ _ := rfl

def clientStatus : StatusColumns Client where
  isOnline := Client.isOnline
  set online now client :=
    { client with
      isOnline := online
      updatedAt := now
      lastOnlineAt := if online then some now else client.lastOnlineAt }
  key_set _ _ _ := rfl
  isOnline_set _ _ _ := rfl

abbrev NodeManager := SessionRegistry Node

abbrev ClientStreamManager := SessionRegistry Client

def NodeManager.step : NodeManager → RegistryInput → Option NodeManager :=
  SessionRegistry.step nodeStatus

def ClientStreamManager.step : ClientStreamManager → RegistryInput → Option ClientStreamManager :=
  SessionRegistry.step clientStatus

/-- Equal but for the status, with the last time online kept by a row that is
not set online. -/
def Node.SameSettings (row row' : Node) : Prop :=
  row' = { row with
    isOnline := row'.isOnline, updatedAt := row'.updatedAt, lastOnlineAt := row'.lastOnlineAt } ∧
    (row'.isOnline = false → row'.lastOnlineAt = row.lastOnlineAt)

def Client.SameSettings (row row' : Client) : Prop :=
  row' = { row with
    isOnline := row'.isOnline, updatedAt := row'.updatedAt, lastOnlineAt := row'.lastOnlineAt } ∧
    (row'.isOnline = false → row'.lastOnlineAt = row.lastOnlineAt)

theorem nodeStatus_same (online : Bool) (now : NaiveDateTime) (row : Node) :
    row.SameSettings (nodeStatus.set online now row) := by
  refine ⟨rfl, fun hoffline ↦ ?_⟩
  have hoffline : online = false := hoffline
  rw [hoffline]
  rfl

theorem clientStatus_same (online : Bool) (now : NaiveDateTime) (row : Client) :
    row.SameSettings (clientStatus.set online now row) := by
  refine ⟨rfl, fun hoffline ↦ ?_⟩
  have hoffline : online = false := hoffline
  rw [hoffline]
  rfl

/-- In every interleaving of the operations of either registry, each step
follows the sessions. -/
theorem session_registries_followed :
    (∀ (rows : Table Node) (inputs : List RegistryInput) (m m' : NodeManager) (i : RegistryInput),
      run NodeManager.step (.start rows) inputs = some m → m.step i = some m' →
        m.Followed nodeStatus Node.SameSettings i m') ∧
    (∀ (rows : Table Client) (inputs : List RegistryInput) (m m' : ClientStreamManager)
      (i : RegistryInput),
      run ClientStreamManager.step (.start rows) inputs = some m → m.step i = some m' →
        m.Followed clientStatus Client.SameSettings i m') := by
  constructor
  · intro rows inputs m m' i hrun hstep
    have hinv : m.Inv := run_invariant_of_step (fun _ _ _ hs hstep ↦ hs.step hstep) (.start rows) hrun
    exact hinv.followed (fun _ ↦ ⟨rfl, fun _ ↦ rfl⟩) nodeStatus_same hstep
  · intro rows inputs m m' i hrun hstep
    have hinv : m.Inv := run_invariant_of_step (fun _ _ _ hs hstep ↦ hs.step hstep) (.start rows) hrun
    exact hinv.followed (fun _ ↦ ⟨rfl, fun _ ↦ rfl⟩) clientStatus_same hstep

/-- A node connects again before its first stream is removed. -/
def reconnect : List RegistryInput :=
  [.register 1 10, .persist true default, .close 10, .register 1 11, .persist true default]

/-- The first stream is removed without effect, the second one with its status. -/
theorem session_registries_reconnect :
    (∃ m ∈ run NodeManager.step (.start ⟨[{ (default : Node) with id := 1 }], by simp⟩) reconnect,
      m.step (.unregister 1 10) = some m) ∧
    ∃ m ∈ run ClientStreamManager.step (.start ⟨[{ (default : Client) with id := 1 }], by simp⟩)
        reconnect,
      ∃ m' ∈ m.step (.unregister 1 11), ∃ v ∈ m'.step (.persist true default),
        ∃ row, v.rows.find 1 = some row ∧ row.isOnline = false := by
  constructor
  · have hfollowed := (session_registries_followed.1 ⟨[{ (default : Node) with id := 1 }], by simp⟩
      reconnect _ _ (.unregister 1 10) rfl rfl).stale 1 10 rfl ⟨11, List.Sublist.refl _⟩
    exact ⟨_, rfl, congrArg some hfollowed⟩
  · obtain ⟨-, hpersists⟩ := (session_registries_followed.2
      ⟨[{ (default : Client) with id := 1 }], by simp⟩ reconnect _ _ (.unregister 1 11) rfl
        rfl).unregistered 1 11 rfl rfl
    obtain ⟨v, hv, hoffline⟩ := hpersists [] _ default (by simp) rfl
    obtain ⟨row, hrow⟩ : ∃ row, v.rows.find 1 = some row := by
      obtain rfl := Option.some.inj hv
      exact ⟨_, rfl⟩
    exact ⟨_, rfl, _, rfl, v, hv, row, hrow, hoffline row hrow⟩

end Oxiproxy.Controller
