import Oxiproxy.Tunnel.UdpSession

/-!
# Datagram boundaries

The stream does not mark where a datagram ends.  Datagrams keep their boundaries
if and only if every read happens to return exactly one of them.
-/

namespace Oxiproxy.Tunnel.UdpSession

open Transition ByteStream

variable {target : TargetAddr} {data : Datagram} {s t : UdpSession} {input : UdpInput}

/-- The datagrams arrive as they were sent, in both directions. -/
structure Boundaries (s : UdpSession) : Prop where
  toTarget : Delivers s.sent s.atTarget s.toClient.bytes
  toPeer : Delivers s.replied s.atPeer s.toNode.bytes

/-- A read of a loop. -/
def IsRead : UdpInput → Prop
  | .initial _ | .relay _ | .forward _ => True
  | _ => False

/-- Nothing empty is written, and a read returns the whole next datagram. -/
def Whole (data : Datagram) (s : UdpSession) : UdpInput → Prop
  | .write | .accept => data.1 ≠ []
  | .answer => ∀ d ∈ s.inbox.head?, d.1 ≠ []
  | .initial n | .relay n => (s.sent[s.atTarget.length]?).map List.length = some n
  | .forward n => (s.replied[s.atPeer.length]?).map List.length = some n
  | _ => True

instance (data : Datagram) (s : UdpSession) : ∀ input, Decidable (Whole data s input)
  | .write | .accept => inferInstanceAs (Decidable (data.1 ≠ []))
  | .answer => inferInstanceAs (Decidable (∀ d ∈ s.inbox.head?, d.1 ≠ []))
  | .initial n | .relay n =>
      inferInstanceAs (Decidable ((s.sent[s.atTarget.length]?).map List.length = some n))
  | .forward n =>
      inferInstanceAs (Decidable ((s.replied[s.atPeer.length]?).map List.length = some n))
  | .nodeEof | .finish | .headerEof | .initialLost _ | .initialEof | .relayEof | .shutdown
  | .reply _ | .nodeFails | .clientFails => .isTrue trivial

theorem carries_aligned (hok : Whole data s input) : Carries Aligned data s input where
  nil := aligned_nil
  write sent arrived bytes h hinput := by
    rcases hinput with rfl | rfl
    · exact h.write hok
    · exact h.write hok
  answer d rest h hinput hinbox := by
    subst hinput
    exact h.write (hok d (by rw [hinbox]; rfl))
  relay n h hinput _ := by
    rcases hinput with rfl | rfl
    · obtain ⟨m, hm, rfl⟩ := Option.map_eq_some_iff.mp hok
      exact h.read hm
    · obtain ⟨m, hm, rfl⟩ := Option.map_eq_some_iff.mp hok
      exact h.read hm
  forward n h hinput _ := by
    subst hinput
    obtain ⟨m, hm, rfl⟩ := Option.map_eq_some_iff.mp hok
    exact h.read hm

/-- Before the header has been read there is a header in the stream. -/
theorem Unread.delivers (hs : Unread target data s) :
    Delivers s.sent s.atTarget s.toClient.bytes := by
  obtain ⟨done, left, hsplit, hbytes, hsent, -, -⟩ := hs.split
  rw [hs.atTarget]
  refine ⟨List.nil_prefix, fun hempty ↦ ?_⟩
  rw [hbytes] at hempty
  cases done with
  | nil =>
      have hleft : left ≠ [] := by
        rintro rfl
        cases hsplit
      rw [hsent, if_neg hleft]
  | cons w done =>
      simp only [openingWrites, List.cons_append, List.cons.injEq] at hsplit
      rw [List.flatten_cons, ← hsplit.1] at hempty
      cases hempty

theorem Flow.boundaries (hs : Flow Aligned target data s) : s.Boundaries := by
  refine ⟨?_, hs.toNode.delivers⟩
  rcases hs.toClient with hunread | hpast
  · exact hunread.delivers
  · exact hpast.flow.delivers

/-- A read that returns anything else shows. -/
theorem Boundaries.whole (ht : t.Boundaries) (hread : IsRead input) (h : s.step input = some t) :
    Whole data s input := by
  cases input with
  | initial n =>
      simp only [UdpSession.step] at h
      split_ifs at h with hok
      cases h
      exact Option.map_eq_some_iff.mpr (next_of_read hok.2.1.2.1 ht.toTarget.first)
  | relay n =>
      simp only [UdpSession.step] at h
      split_ifs at h with hok
      cases h
      exact Option.map_eq_some_iff.mpr (next_of_read hok.2.2.1 ht.toTarget.first)
  | forward n =>
      simp only [UdpSession.step] at h
      split_ifs at h with hok
      cases h
      exact Option.map_eq_some_iff.mpr (next_of_read hok.2.2.1 ht.toPeer.first)
  | _ => exact hread.elim

/-- The datagrams keep their boundaries as long as every read returns one whole
datagram and none is empty, and after such a run the next read keeps them if and
only if it does so too. -/
theorem datagrams_keep_boundaries (target : TargetAddr) (data : Datagram) (inputs : List UdpInput)
    (s : UdpSession) (hrun : run step (start target data) inputs = some s)
    (hok : Within step (Whole data) (start target data) inputs) :
    s.Boundaries ∧ ∀ input t, IsRead input → s.step input = some t →
      (t.Boundaries ↔ Whole data s input) := by
  have hstep : ∀ (s : UdpSession) input t, Flow Aligned target data s → Whole data s input →
      s.step input = some t → Flow Aligned target data t :=
    fun _ _ _ hs hok h ↦ hs.step (carries_aligned hok) h
  have hs : Flow Aligned target data s :=
    run_invariant hstep (flow_start aligned_nil target data) hok hrun
  refine ⟨hs.boundaries, fun input t hread h ↦ ⟨fun ht ↦ ht.whole hread h, fun hwhole ↦ ?_⟩⟩
  exact (hs.step (carries_aligned hwhole) h).boundaries

theorem datagrams_keep_boundaries_whole :
    ∃ s, run step (start localTarget ⟨[1, 2], by decide⟩) (opening ++ [.initial 2]) = some s ∧
      s.atTarget = [[1, 2]] ∧ s.Boundaries := by
  obtain ⟨s, hrun, hs⟩ : ∃ s ∈ run step (start localTarget ⟨[1, 2], by decide⟩)
      (opening ++ [.initial 2]), s.atTarget = [[1, 2]] := by
    decide +kernel
  exact ⟨s, hrun, hs, (datagrams_keep_boundaries localTarget ⟨[1, 2], by decide⟩ _ s hrun
    (by decide +kernel)).1⟩

/-- A datagram of two bytes, read in two pieces. -/
theorem not_boundaries_split :
    ∃ s, run step (start localTarget ⟨[1, 2], by decide⟩) (opening ++ [.initial 1, .relay 1]) =
      some s ∧ s.atTarget = [[1], [2]] ∧ ¬ s.Boundaries := by
  obtain ⟨s, hrun, hs, hsent⟩ : ∃ s ∈ run step (start localTarget ⟨[1, 2], by decide⟩)
      (opening ++ [.initial 1, .relay 1]), s.atTarget = [[1], [2]] ∧ s.sent = [[1, 2]] := by
    decide +kernel
  refine ⟨s, hrun, hs, fun hkept ↦ ?_⟩
  have hfirst := hkept.toTarget.first
  rw [hs, hsent] at hfirst
  exact absurd hfirst (by decide)

end Oxiproxy.Tunnel.UdpSession
