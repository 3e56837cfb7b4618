import Oxiproxy.Controller.FlushMeter
import Oxiproxy.Foundation.Runs

/-!
# The fan-out of one flush

A flush whose database calls all succeed, under a clock that stands still,
terminates with an empty buffer and has added to every row exactly the entries
that map to it.  These sums are integers, which the `i64` columns hold wrapped
around.
-/

namespace Oxiproxy.Controller

open Transition

/-! ## Termination -/

def Resume.rank : Resume → ℕ
  | .owner _ _ => 6
  | .nextKey => 2
  | .nextNode => 1

def Position.rank : Position → ℕ
  | .readToday => 4
  | .readNow => 3
  | .nextKey => 2
  | .findProxy _ _ => 19
  | .updateProxy _ _ _ => 12
  | .findClient _ _ _ => 11
  | .upsertDaily _ _ _ _ => 10
  | .findUser _ _ => 6
  | .nextNode => 1
  | .findNode _ _ => 5
  | .updateAccount _ _ _ _ next => next.rank + 3
  | .refindAccount _ next => next.rank + 2
  | .markAccount _ next => next.rank + 1
  | .done => 0

/-- An entry of the buffer may still become a node's entry, whence its weight. -/
def Flush.rank (f : Flush) : ℕ :=
  18 * f.buffer.length + 6 * f.nodeTraffic.entries.length + f.position.rank

theorem Resume.rank_position_le (next : Resume) : next.position.rank ≤ next.rank := by
  cases next with
  | owner userId bytes => cases userId <;> simp [Resume.position, Position.rank, Resume.rank]
  | nextKey => exact le_rfl
  | nextNode => exact le_rfl

theorem rank_afterDaily_lt (k : TrafficKey) (bytes : Bytes) (directUserId : Option ℤ)
    (client : Option Client) : (afterDaily k bytes directUserId client).rank < 10 := by
  cases client with
  | none =>
      have hle := Resume.rank_position_le (.owner directUserId bytes)
      simp only [afterDaily, Option.bind_none, Option.or_none]
      have hrank : (Resume.owner directUserId bytes).rank = 6 := rfl
      omega
  | some c => simp [afterDaily, Position.rank, Resume.rank]

theorem length_addNodeTraffic_le (m : AList fun _ : ℤ ↦ Bytes) (nodeId : Option ℤ) (bytes : Bytes) :
    (addNodeTraffic m nodeId bytes).entries.length ≤ m.entries.length + 1 := by
  cases nodeId with
  | none => exact Nat.le_succ _
  | some id =>
      rw [addNodeTraffic, AList.entries_insert, List.length_cons]
      have hle := (List.kerase_sublist id m.entries).length_le
      omega

theorem length_erase_of_getElem? {m : AList fun _ : ℤ ↦ Bytes} {i : ℕ} {id : ℤ} {bytes : Bytes}
    (h : m.entries[i]? = some ⟨id, bytes⟩) :
    (m.erase id).entries.length + 1 = m.entries.length := by
  have hmem : id ∈ m.entries.keys := List.mem_keys_of_mem (List.mem_of_getElem? h)
  obtain ⟨b, l₁, l₂, -, hentries, herase⟩ := List.exists_of_kerase hmem
  have heq : (m.erase id).entries = l₁ ++ l₂ := herase
  rw [heq, hentries]
  simp only [List.length_append, List.length_cons]
  omega

/-- A flush that is not done can take its next step, which brings it closer to
the end. -/
theorem flushStep_rank (env : StepEnv) (db : Db) (f : Flush) (hdone : f.position ≠ .done) :
    ∃ db' f' app, flushStep env db f = some (db', f', app) ∧ f'.rank < f.rank := by
  unfold flushStep
  cases hpos : f.position with
  | readToday | readNow | findClient =>
      refine ⟨_, _, _, rfl, ?_⟩
      simp only [Flush.rank, hpos, Position.rank]
      omega
  | nextKey =>
      simp only
      split
      · refine ⟨_, _, _, rfl, ?_⟩
        simp only [Flush.rank, hpos, Position.rank]
        omega
      · rename_i k bytes hentry
        refine ⟨_, _, _, rfl, ?_⟩
        obtain ⟨hlt, -⟩ := List.getElem?_eq_some_iff.mp hentry
        have hlength := List.length_eraseIdx_of_lt hlt
        simp only [Flush.rank, hpos]
        split_ifs <;> simp only [Position.rank] <;> omega
  | findProxy k bytes =>
      simp only
      split
      · refine ⟨_, _, _, rfl, ?_⟩
        simp only [Flush.rank, hpos, Position.rank]
        omega
      · rename_i proxy hproxy
        refine ⟨_, _, _, rfl, ?_⟩
        have hle := length_addNodeTraffic_le f.nodeTraffic proxy.nodeId bytes
        simp only [Flush.rank, hpos, Position.rank]
        omega
  | updateProxy k bytes proxy =>
      simp only
      split_ifs
      · refine ⟨_, _, _, rfl, ?_⟩
        simp only [Flush.rank, hpos, Position.rank]
        omega
      · refine ⟨_, _, _, rfl, ?_⟩
        simp only [Flush.rank, hpos, Position.rank]
        omega
  | upsertDaily k bytes directUserId client =>
      have hlt := rank_afterDaily_lt k bytes directUserId client
      have hrank : f.position.rank = 10 := by
        rw [hpos]
        rfl
      simp only
      split_ifs
      · refine ⟨_, _, _, rfl, ?_⟩
        simp only [Flush.rank, hrank]
        omega
      · refine ⟨_, _, _, rfl, ?_⟩
        simp only [Flush.rank, hrank]
        omega
  | findUser id bytes =>
      simp only
      split
      · refine ⟨_, _, _, rfl, ?_⟩
        simp only [Flush.rank, hpos, Position.rank]
        omega
      · refine ⟨_, _, _, rfl, ?_⟩
        simp only [Flush.rank, hpos, Position.rank, Resume.rank]
        omega
  | nextNode =>
      simp only
      split
      · refine ⟨_, _, _, rfl, ?_⟩
        simp only [Flush.rank, hpos, Position.rank]
        omega
      · rename_i id bytes hentry
        refine ⟨_, _, _, rfl, ?_⟩
        have hlength := length_erase_of_getElem? hentry
        simp only [Flush.rank, hpos, Position.rank]
        omega
  | findNode id bytes =>
      simp only
      split
      · refine ⟨_, _, _, rfl, ?_⟩
        simp only [Flush.rank, hpos, Position.rank]
        omega
      · refine ⟨_, _, _, rfl, ?_⟩
        simp only [Flush.rank, hpos, Position.rank, Resume.rank]
        omega
  | updateAccount a plan read bytes next =>
      have hle := next.rank_position_le
      have hrank : f.position.rank = next.rank + 3 := by
        rw [hpos]
        rfl
      by_cases h : env.ok = true ∧ (db.account a).isSome = true
      · obtain ⟨position, hposition, heq⟩ := updateAccount_of_ok f plan read bytes next h
        refine ⟨_, _, _, congrArg some heq, ?_⟩
        have hlt : position.rank < next.rank + 3 := by
          rcases hposition with rfl | rfl
          · exact Nat.lt_succ_self (next.rank + 2)
          · omega
        simp only [Flush.rank, hrank]
        omega
      · refine ⟨_, _, _, congrArg some (updateAccount_of_not f plan read bytes next h), ?_⟩
        simp only [Flush.rank, hrank]
        omega
  | refindAccount a next =>
      have hle := next.rank_position_le
      have hrank : f.position.rank = next.rank + 2 := by
        rw [hpos]
        rfl
      simp only
      split_ifs
      · have hmark : (Position.markAccount a next).rank = next.rank + 1 := rfl
        refine ⟨_, _, _, rfl, ?_⟩
        simp only [Flush.rank, hrank, hmark]
        omega
      · refine ⟨_, _, _, rfl, ?_⟩
        simp only [Flush.rank, hrank]
        omega
  | markAccount a next =>
      have hle := next.rank_position_le
      have hrank : f.position.rank = next.rank + 1 := by
        rw [hpos]
        rfl
      refine ⟨_, _, _, rfl, ?_⟩
      simp only [Flush.rank, hrank]
      omega
  | done => exact (hdone hpos).elim

/-! ## The buffer is drained before the nodes are updated -/

def Resume.PerNode : Resume → Prop
  | .owner _ _ => False
  | .nextKey => False
  | .nextNode => True

def Position.PerNode : Position → Prop
  | .nextNode => True
  | .findNode _ _ => True
  | .updateAccount _ _ _ _ next => next.PerNode
  | .refindAccount _ next => next.PerNode
  | .markAccount _ next => next.PerNode
  | .done => True
  | _ => False

structure Flush.Drained (f : Flush) : Prop where
  buffer : f.position.PerNode → f.buffer = []
  nodeTraffic : f.position = .done → f.nodeTraffic.entries = []

theorem Resume.perNode_position (next : Resume) (h : next.position.PerNode) : next.PerNode := by
  cases next with
  | owner userId bytes => cases userId <;> exact h.elim
  | nextKey => exact h.elim
  | nextNode => trivial

theorem Resume.position_ne_done (next : Resume) : next.position ≠ .done := by
  cases next with
  | owner userId bytes => cases userId <;> exact nofun
  | nextKey => exact nofun
  | nextNode => exact nofun

theorem Flush.Drained.of_not_perNode {f : Flush} (h : ¬ f.position.PerNode) : f.Drained :=
  ⟨fun hper ↦ (h hper).elim, fun hdone ↦ (h (hdone ▸ trivial)).elim⟩

theorem List.eq_nil_of_getElem?_mod {α : Type*} {l : List α} {n : ℕ}
    (h : l[n % l.length]? = none) : l = [] := by
  by_contra hne
  have hlt := Nat.mod_lt n (List.length_pos_of_ne_nil hne)
  exact absurd (List.getElem?_eq_none_iff.mp h) (not_le.mpr hlt)

theorem Flush.Drained.credit_done {M : Type*} [AddCommMonoid M] {f : Flush} (hf : f.Drained)
    (hdone : f.position = .done) (w : Bytes → M) (L : Links) (today : String) (r : RowId) :
    credit w L today r f = 0 := by
  have hbuffer : f.buffer = [] := hf.buffer (by rw [hdone]; trivial)
  have hnodes : f.nodeTraffic.entries = [] := hf.nodeTraffic hdone
  simp [credit, hbuffer, hdone, positionCredit, AList.sumOver, hnodes]

section Drain

variable {env : StepEnv} {db db' : Db} {f f' : Flush} {app : Option Application}

theorem Flush.Drained.resume (hf : f.Drained) {next : Resume}
    (hper : next.PerNode → f.position.PerNode) :
    Flush.Drained { f with position := next.position } :=
  ⟨fun h ↦ hf.buffer (hper (next.perNode_position h)), fun h ↦ (next.position_ne_done h).elim⟩

theorem Flush.Drained.step (hf : f.Drained)
    (hstep : flushStep env db f = some (db', f', app)) : f'.Drained := by
  unfold flushStep at hstep
  cases hpos : f.position with
  | readToday | readNow | findClient =>
      rw [hpos] at hstep
      cases hstep
      exact .of_not_perNode id
  | nextKey =>
      rw [hpos] at hstep
      simp only at hstep
      split at hstep <;> cases hstep
      · rename_i hnone
        exact ⟨fun _ ↦ List.eq_nil_of_getElem?_mod hnone, by simp⟩
      · refine .of_not_perNode ?_
        simp only
        split_ifs <;> exact id
  | findProxy | findUser =>
      rw [hpos] at hstep
      simp only at hstep
      split at hstep <;> cases hstep <;> exact .of_not_perNode id
  | updateProxy =>
      rw [hpos] at hstep
      simp only at hstep
      split_ifs at hstep <;> cases hstep <;> exact .of_not_perNode id
  | upsertDaily k bytes directUserId client =>
      have hnot : ¬ (afterDaily k bytes directUserId client).PerNode := by
        cases client with
        | none => exact Resume.perNode_position (.owner _ bytes)
        | some c => exact id
      rw [hpos] at hstep
      simp only at hstep
      split_ifs at hstep <;> cases hstep <;> exact .of_not_perNode hnot
  | nextNode =>
      have hbuffer := hf.buffer (by rw [hpos]; trivial)
      rw [hpos] at hstep
      simp only at hstep
      split at hstep <;> cases hstep
      · rename_i hnone
        exact ⟨fun _ ↦ hbuffer, fun _ ↦ List.eq_nil_of_getElem?_mod hnone⟩
      · exact ⟨fun _ ↦ hbuffer, by simp⟩
  | findNode id bytes =>
      have hbuffer := hf.buffer (by rw [hpos]; trivial)
      rw [hpos] at hstep
      simp only at hstep
      split at hstep <;> cases hstep <;> exact ⟨fun _ ↦ hbuffer, by simp⟩
  | updateAccount a plan read bytes next =>
      have hper : next.PerNode → f.position.PerNode := by
        rw [hpos]
        exact fun h ↦ h
      rw [hpos] at hstep
      have hstep := Option.some.inj hstep
      by_cases h : env.ok = true ∧ (db.account a).isSome = true
      · obtain ⟨position, hposition, heq⟩ := updateAccount_of_ok f plan read bytes next h
        cases heq.symm.trans hstep
        rcases hposition with rfl | rfl
        · exact ⟨fun hnext ↦ hf.buffer (hper hnext), by simp⟩
        · exact hf.resume hper
      · cases (updateAccount_of_not f plan read bytes next h).symm.trans hstep
        exact hf.resume hper
  | refindAccount a next =>
      have hper : next.PerNode → f.position.PerNode := by
        rw [hpos]
        exact fun h ↦ h
      rw [hpos] at hstep
      simp only at hstep
      split_ifs at hstep <;> cases hstep
      · exact ⟨fun hnext ↦ hf.buffer (hper hnext), by simp⟩
      · exact hf.resume hper
  | markAccount a next =>
      have hper : next.PerNode → f.position.PerNode := by
        rw [hpos]
        exact fun h ↦ h
      rw [hpos] at hstep
      cases hstep
      exact hf.resume hper
  | done =>
      rw [hpos] at hstep
      cases hstep

end Drain

/-! ## An entry maps to a row at most once -/

namespace Links

variable (L : Links)

theorem mem_accountRows {a : AccountId} {r : RowId} :
    r ∈ L.accountRows a ↔ L.has a = true ∧ r = .account a := by
  unfold accountRows
  split_ifs with h <;> simp [h]

theorem mem_userRows {userId : Option ℤ} {r : RowId} (h : r ∈ L.userRows userId) :
    ∃ id, r = .account (.user id) := by
  cases userId with
  | none => simp [userRows] at h
  | some id => exact ⟨id, (L.mem_accountRows.mp h).2⟩

theorem mem_nodeRows {nodeId : Option ℤ} {r : RowId} (h : r ∈ L.nodeRows nodeId) :
    ∃ id, r = .account (.node id) := by
  cases nodeId with
  | none => simp [nodeRows] at h
  | some id => exact ⟨id, (L.mem_accountRows.mp h).2⟩

theorem nodup_accountRows (a : AccountId) : (L.accountRows a).Nodup := by
  unfold accountRows
  split_ifs <;> simp

theorem nodup_userRows (userId : Option ℤ) : (L.userRows userId).Nodup := by
  cases userId with
  | none => exact List.nodup_nil
  | some id => exact L.nodup_accountRows (.user id)

theorem nodup_nodeRows (nodeId : Option ℤ) : (L.nodeRows nodeId).Nodup := by
  cases nodeId with
  | none => exact List.nodup_nil
  | some id => exact L.nodup_accountRows (.node id)

theorem nodup_keyRows (today : String) (k : TrafficKey) : (L.keyRows today k).Nodup := by
  unfold keyRows
  split
  · rename_i nodeId userId _
    have hclient : (L.clientRows k userId).Nodup := by
      refine List.nodup_append.mpr ⟨L.nodup_accountRows _, L.nodup_userRows _, ?_⟩
      rintro r hr r' hr' rfl
      obtain ⟨id, hid⟩ := L.mem_userRows hr'
      exact absurd ((L.mem_accountRows.mp hr).2.symm.trans hid) (by simp)
    have haccounts : (L.clientRows k userId ++ L.nodeRows nodeId).Nodup := by
      refine List.nodup_append.mpr ⟨hclient, L.nodup_nodeRows _, ?_⟩
      rintro r hr r' hr' rfl
      obtain ⟨id, rfl⟩ := L.mem_nodeRows hr'
      rcases List.mem_append.mp hr with h | h
      · exact absurd (L.mem_accountRows.mp h).2 (by simp)
      · obtain ⟨id', hid'⟩ := L.mem_userRows h
        exact absurd hid' (by simp)
    have haccount : ∀ r ∈ L.clientRows k userId ++ L.nodeRows nodeId, ∃ a, r = .account a := by
      intro r hr
      rcases List.mem_append.mp hr with h | h
      · rcases List.mem_append.mp h with h | h
        · exact ⟨_, (L.mem_accountRows.mp h).2⟩
        · obtain ⟨id, hid⟩ := L.mem_userRows h
          exact ⟨_, hid⟩
      · obtain ⟨id, hid⟩ := L.mem_nodeRows h
        exact ⟨_, hid⟩
    refine List.nodup_cons.mpr ⟨?_, List.nodup_cons.mpr ⟨?_, haccounts⟩⟩
    · intro hmem
      rcases List.mem_cons.mp hmem with h | h
      · cases h
      · obtain ⟨a, ha⟩ := haccount _ h
        cases ha
    · intro hmem
      obtain ⟨a, ha⟩ := haccount _ hmem
      cases ha
  · exact List.nodup_nil

end Links

/-! ## What the buffer adds to a row -/

/-- The bytes of the entries that map to a row. -/
def Links.mapped (L : Links) (today : String) (buffer : List (TrafficKey × Bytes)) (r : RowId) :
    List Bytes :=
  (buffer.filter fun e ↦ r ∈ L.keyRows today e.1).map (·.2)

/-- Bytes together with the fact that they were added. -/
def weigh (bytes : Bytes) : Bytes × ℕ∞ := (bytes, ⊤)

theorem weigh_add (a b : Bytes) : weigh (a + b) = weigh a + weigh b := rfl

/-- The weight of a sum that may be empty. -/
def weighSum : Option Bytes → Bytes × ℕ∞
  | none => 0
  | some bytes => weigh bytes

theorem weighSum_add (x : Option Bytes) (bytes : Bytes) :
    weighSum x + weigh bytes = weighSum (some (x.getD 0 + bytes)) := by
  cases x with
  | none => simp [weighSum]
  | some a => exact (weigh_add a bytes).symm

theorem weighSum_injective : Function.Injective weighSum := by
  intro x y h
  cases x with
  | none =>
      cases y with
      | none => rfl
      | some b => exact absurd (congrArg Prod.snd h) ENat.zero_ne_top
  | some a =>
      cases y with
      | none => exact absurd (congrArg Prod.snd h) ENat.top_ne_zero
      | some b => exact congrArg some (congrArg Prod.fst h)

/-- The sum of the non-zero bytes of a list, if there are any. -/
def sumNonzero (l : List Bytes) : Option Bytes := if ∀ b ∈ l, b = 0 then none else some l.sum

theorem weighSum_sumNonzero_cons (b : Bytes) (l : List Bytes) :
    weighSum (sumNonzero (b :: l)) = (if b = 0 then 0 else weigh b) + weighSum (sumNonzero l) := by
  by_cases hl : ∀ b ∈ l, b = 0
  · by_cases hb : b = 0
    · have hall : ∀ c ∈ b :: l, c = 0 := List.forall_mem_cons.mpr ⟨hb, hl⟩
      rw [sumNonzero, sumNonzero, if_pos hl, if_pos hall, if_pos hb, zero_add]
    · have hnot : ¬ ∀ c ∈ b :: l, c = 0 := fun h ↦ hb (h b List.mem_cons_self)
      rw [sumNonzero, sumNonzero, if_pos hl, if_neg hnot, if_neg hb, List.sum_cons,
        List.sum_eq_zero hl, add_zero]
      exact (add_zero (weigh b)).symm
  · have hnot : ¬ ∀ c ∈ b :: l, c = 0 := fun h ↦ hl fun c hc ↦ h c (List.mem_cons_of_mem b hc)
    rw [sumNonzero, sumNonzero, if_neg hl, if_neg hnot, List.sum_cons]
    by_cases hb : b = 0
    · rw [if_pos hb, hb, zero_add, zero_add]
    · rw [if_neg hb]
      exact weigh_add b l.sum

theorem entryCredit_eq {M : Type*} [AddCommMonoid M] (w : Bytes → M) (L : Links) (today : String)
    (r : RowId) (e : TrafficKey × Bytes) :
    entryCredit w L today r e =
      if r ∈ L.keyRows today e.1 then if e.2 = 0 then 0 else w e.2 else 0 := by
  have hzero : (e.2.1 = 0 ∧ e.2.2 = 0) ↔ e.2 = 0 := (Prod.ext_iff (y := (0 : Bytes))).symm
  unfold entryCredit rowsCredit
  simp only [hzero]
  by_cases hr : r ∈ L.keyRows today e.1
  · rw [List.count_eq_one_of_mem (L.nodup_keyRows today e.1) hr, if_pos hr, one_nsmul]
  · rw [List.count_eq_zero_of_not_mem hr, if_neg hr, zero_nsmul, ite_self]

theorem credit_start (L : Links) (today : String) (r : RowId) (buffer : List (TrafficKey × Bytes))
    (today₀ : String) (now₀ : NaiveDateTime) :
    credit weigh L today r (Flush.start buffer today₀ now₀) =
      weighSum (sumNonzero (L.mapped today buffer r)) := by
  have hbuffer : (buffer.map (entryCredit weigh L today r)).sum =
      weighSum (sumNonzero (L.mapped today buffer r)) := by
    induction buffer with
    | nil => simp [Links.mapped, sumNonzero, weighSum]
    | cons e buffer ih =>
        rw [List.map_cons, List.sum_cons, ih, entryCredit_eq]
        unfold Links.mapped
        by_cases hr : r ∈ L.keyRows today e.1
        · rw [if_pos hr, List.filter_cons_of_pos (by simpa using hr), List.map_cons,
            weighSum_sumNonzero_cons]
        · rw [if_neg hr, List.filter_cons_of_neg (by simpa using hr), zero_add]
  simpa [credit, Flush.start, positionCredit] using hbuffer

/-! ## The run of one flush -/

/-- A row's meter after some bytes, if any, were added at one instant. -/
def Meter.settle (now : NaiveDateTime) (m : Option Meter) : Option Bytes → Option Meter
  | none => m
  | some bytes => some ((m.getD zero).add now now bytes)

theorem Meter.due_add (m : Meter) (now : NaiveDateTime) (bytes : Bytes) :
    (m.add now now bytes).due now = false := by
  have hself : ∀ cycle, resetDue cycle (some now) now = false := by
    intro cycle
    rw [← Bool.not_eq_true, resetDue_some_iff]
    exact lt_irrefl _
  unfold add
  split_ifs with hdue
  · cases hreset : m.reset with
    | none => rfl
    | some reset => exact hself reset.1
  · exact Bool.not_eq_true _ ▸ hdue

/-- Adding twice at one instant is adding the sum: a reset is due only once. -/
theorem Meter.add_add (m : Meter) (now : NaiveDateTime) (a b : Bytes) :
    (m.add now now a).add now now b = m.add now now (a + b) := by
  have hdue := m.due_add now a
  unfold add at hdue ⊢
  rw [hdue]
  split_ifs <;> simp_all [add_assoc]

/-- What a row has received after one more step. -/
def received (r : RowId) (app : Option Application) (x : Option Bytes) : Option Bytes :=
  match app with
  | some app => if app.row = r then some (x.getD 0 + app.bytes) else x
  | none => x

theorem Meter.apply_settle {now : NaiveDateTime} {app : Option Application}
    (happ : Stamped now now app) (r : RowId) (m : Option Meter) (x : Option Bytes) :
    apply r app (settle now m x) = settle now m (received r app x) := by
  cases app with
  | none => rfl
  | some app =>
      obtain ⟨hstart, hinstant⟩ := happ app rfl
      unfold apply received
      simp only
      split_ifs
      · rw [hstart, hinstant]
        cases x with
        | none => simp [settle]
        | some a => simp [settle, add_add]
      · rfl

theorem applied_add_weighSum (r : RowId) (app : Option Application) (x : Option Bytes) :
    applied weigh r app + weighSum x = weighSum (received r app x) := by
  cases app with
  | none => simp [applied, received]
  | some app =>
      unfold applied received
      simp only
      split_ifs
      · rw [add_comm, weighSum_add]
      · rw [zero_add]

def flushMachine (s : Db × Flush) (env : StepEnv) : Option (Db × Flush) :=
  (flushStep env s.1 s.2).map fun t ↦ (t.1, t.2.1)

/-- A flush on its way from `db₀`: what each row has received and what the flush
still owes it make up what the buffer maps to it. -/
structure FlushedSoFar (db₀ : Db) (buffer : List (TrafficKey × Bytes)) (now : NaiveDateTime)
    (s : Db × Flush) : Prop where
  links : s.1.links = db₀.links
  fresh : s.2.Fresh s.1
  consistent : s.2.Consistent db₀.links
  drained : s.2.Drained
  today : s.2.position ≠ .readToday → s.2.today = now.date.format
  now_eq : s.2.position.Started → s.2.now = now
  received : ∀ r, ∃ x,
    credit weigh db₀.links now.date.format r s.2 + weighSum x =
        weighSum (sumNonzero (db₀.links.mapped now.date.format buffer r)) ∧
      s.1.meter r = Meter.settle now (db₀.meter r) x

section OneFlush

variable {db₀ : Db} {buffer : List (TrafficKey × Bytes)} {now : NaiveDateTime}

theorem FlushedSoFar.start (db₀ : Db) (buffer : List (TrafficKey × Bytes)) (now : NaiveDateTime)
    (today₀ : String) (now₀ : NaiveDateTime) :
    FlushedSoFar db₀ buffer now (db₀, Flush.start buffer today₀ now₀) where
  links := rfl
  fresh := trivial
  consistent := trivial
  drained := .of_not_perNode id
  today h := (h rfl).elim
  now_eq h := h.elim
  received r := by
    refine ⟨none, ?_, rfl⟩
    rw [credit_start]
    exact add_zero _

theorem FlushedSoFar.step {s t : Db × Flush} {env : StepEnv} (hs : FlushedSoFar db₀ buffer now s)
    (henv : env.ok = true ∧ env.clock = now) (hstep : flushMachine s env = some t) :
    FlushedSoFar db₀ buffer now t := by
  obtain ⟨⟨db', f', app⟩, hflush, rfl⟩ := Option.map_eq_some_iff.mp hstep
  obtain ⟨hok, rfl⟩ := henv
  have hconsistent : s.2.Consistent s.1.links := hs.links ▸ hs.consistent
  have hcredit := fun r ↦ flushStep_credit (w := weigh) (r := r) weigh_add hok hconsistent hs.today
    hflush
  have htimes := flushStep_times hflush
  have hstamped : Stamped env.clock env.clock app := by
    rcases htimes with ⟨-, -, -, rfl⟩ | ⟨-, -, -, -, rfl⟩ | ⟨hstarted, -, -, -, happ⟩
    · exact stamped_none _ _
    · exact stamped_none _ _
    · exact hs.now_eq hstarted ▸ happ
  refine ⟨?_, ?_, ?_, ?_, ?_, ?_, ?_⟩
  · exact (links_flushStep hflush).trans hs.links
  · exact hs.fresh.step hflush
  · rw [← hs.links]
    exact hconsistent.step hok hflush
  · exact hs.drained.step hflush
  · intro _
    rcases htimes with ⟨-, htoday, -⟩ | ⟨hpos, htoday, -⟩ | ⟨hstarted, htoday, -⟩
    · exact htoday
    · exact htoday.trans (hs.today (by simp [hpos]))
    · refine htoday.trans (hs.today fun hpos ↦ ?_)
      rw [hpos] at hstarted
      exact hstarted
  · intro hstarted'
    rcases htimes with ⟨-, -, hpos, -⟩ | ⟨-, -, hnow, -⟩ | ⟨hstarted, -, hnow, -⟩
    · rw [hpos] at hstarted'
      exact hstarted'.elim
    · exact hnow
    · exact hnow.trans (hs.now_eq hstarted)
  · intro r
    obtain ⟨x, hx, hmeter⟩ := hs.received r
    refine ⟨Controller.received r app x, ?_, ?_⟩
    · have hcr := hcredit r
      rw [hs.links] at hcr
      rw [← hx, ← hcr, add_assoc, applied_add_weighSum]
    · rw [flushStep_meter hs.fresh.current hflush r, hmeter, Meter.apply_settle hstamped]

/-- When a flush is done it owes nothing, so every row has received what the
buffer maps to it. -/
theorem FlushedSoFar.meter_done {s : Db × Flush} (hs : FlushedSoFar db₀ buffer now s)
    (hdone : s.2.position = .done) (r : RowId) :
    s.1.meter r = Meter.settle now (db₀.meter r)
      (sumNonzero (db₀.links.mapped now.date.format buffer r)) := by
  obtain ⟨x, hx, hmeter⟩ := hs.received r
  have hcredit : credit weigh db₀.links now.date.format r s.2 = 0 := hs.drained.credit_done hdone ..
  rw [hcredit, zero_add] at hx
  rw [hmeter, weighSum_injective hx]

end OneFlush

def Db.totals (db : Db) (r : RowId) : Option Bytes := (db.meter r).map Meter.bytes

/-- The totals of a row after a flush: the sum of the entries that map to it, on
top of what it had unless its reset was due.  Entries of zero bytes are skipped,
so they neither create a daily row nor reset one whose period is over. -/
def Db.flushedTotals (db : Db) (now : NaiveDateTime) (buffer : List (TrafficKey × Bytes))
    (r : RowId) : Option Bytes :=
  let mapped := db.links.mapped now.date.format buffer r
  if ∀ bytes ∈ mapped, bytes = 0 then db.totals r
  else
    let before := if (db.meter r).any (·.due now) then 0 else (db.totals r).getD 0
    some (before + mapped.sum)

theorem Meter.bytes_settle_sumNonzero (now : NaiveDateTime) (m : Option Meter) (l : List Bytes) :
    (settle now m (sumNonzero l)).map Meter.bytes =
      if ∀ bytes ∈ l, bytes = 0 then m.map Meter.bytes
      else some ((if m.any (·.due now) then 0 else (m.map Meter.bytes).getD 0) + l.sum) := by
  unfold sumNonzero
  split_ifs with hzero hdue
  · rfl
  · cases m with
    | none => cases hdue
    | some m =>
        have hdue : m.due now = true := hdue
        simp [settle, add, hdue]
  · cases m with
    | none => simp [settle, add, zero, due]
    | some m =>
        have hdue : ¬ m.due now = true := hdue
        simp [settle, add, hdue]

/-- Fan-out of one flush: whatever order the hash maps yield their entries in,
it terminates with an empty buffer and adds to every row what maps to it. -/
theorem flush_fan_out (db : Db) (buffer : List (TrafficKey × Bytes)) (now : NaiveDateTime)
    (today₀ : String) (now₀ : NaiveDateTime) (choice : ℕ → ℕ) :
    ∃ n db' f',
      run flushMachine (db, Flush.start buffer today₀ now₀)
          ((List.range n).map fun i ↦ ⟨now, true, choice i⟩) = some (db', f') ∧
        f'.position = .done ∧ f'.buffer = [] ∧
        ∀ r, db'.totals r = db.flushedTotals now buffer r := by
  have hprogress : ∀ (s : Db × Flush) (env : StepEnv), ¬ s.2.position = .done →
      ∃ t, flushMachine s env = some t ∧ t.2.rank < s.2.rank := by
    intro s env hdone
    obtain ⟨db', f', app, hstep, hlt⟩ := flushStep_rank env s.1 s.2 hdone
    exact ⟨(db', f'), by rw [flushMachine, hstep, Option.map_some], hlt⟩
  obtain ⟨n, ⟨db', f'⟩, hrun, hdone⟩ := exists_run_final (fun s ↦ s.2.rank) hprogress
    (db, Flush.start buffer today₀ now₀) fun i ↦ ⟨now, true, choice i⟩
  have henvs : ∀ env ∈ (List.range n).map fun i ↦ (⟨now, true, choice i⟩ : StepEnv),
      ∀ _ : Db × Flush, env.ok = true ∧ env.clock = now := by
    intro env henv _
    obtain ⟨i, -, rfl⟩ := List.mem_map.mp henv
    exact ⟨rfl, rfl⟩
  have hend : FlushedSoFar db buffer now (db', f') :=
    run_invariant (fun s env t hs henv hstep ↦ hs.step henv hstep)
      (FlushedSoFar.start db buffer now today₀ now₀) (within_of_forall henvs) hrun
  refine ⟨n, db', f', hrun, hdone, hend.drained.buffer (by rw [hdone]; trivial), fun r ↦ ?_⟩
  rw [Db.totals, hend.meter_done hdone r, Meter.bytes_settle_sumNonzero]
  rfl

/-! ## A database with one proxy -/

def lastSecondOfMarch : NaiveDateTime := ⟨.lastOfMarch, 86399 * 10 ^ 9, by decide⟩

def firstInApril : NaiveDateTime := ⟨.firstOfApril, 0, NaiveDateTime.midnight_valid⟩

def webProxy : Proxy where
  id := 1
  clientId := some "2"
  userId := none
  upstreamUrl := ""
  name := "web"
  proxyType := "tcp"
  domain := ""
  localIp := "127.0.0.1"
  localPort := 80
  remotePort := 8080
  enabled := true
  nodeId := none
  groupId := none
  totalBytesSent := 0
  totalBytesReceived := 0
  createdAt := lastSecondOfMarch
  updatedAt := lastSecondOfMarch

/-- A client with a monthly cycle. -/
def monthlyClient (bytes : Bytes) (lastResetAt : Option NaiveDateTime) : Client where
  id := 2
  name := "home"
  token := "secret"
  isOnline := true
  publicIp := none
  region := none
  totalBytesSent := bytes.1
  totalBytesReceived := bytes.2
  trafficResetCycle := "monthly"
  lastResetAt := lastResetAt
  isTrafficExceeded := false
  trafficQuotaGb := none
  userId := none
  version := none
  lastOnlineAt := none
  createdAt := lastSecondOfMarch
  updatedAt := lastSecondOfMarch

def webDb (bytes : Bytes) (lastResetAt : Option NaiveDateTime) : Db where
  users := .empty
  clients := ⟨[monthlyClient bytes lastResetAt], List.nodup_singleton _⟩
  nodes := .empty
  proxies := ⟨[webProxy], List.nodup_singleton _⟩
  trafficDaily := .empty
  userSubscriptions := .empty

/-- An entry of zero bytes maps to a client whose reset is due; after the flush
the client still has the total of the past month. -/
theorem not_fan_out_zero_entry :
    let db := webDb (5, 7) (some lastSecondOfMarch)
    let buffer : List (TrafficKey × Bytes) := [(⟨1, 2, none⟩, 0)]
    let client : RowId := .account (.client 2)
    db.links.mapped firstInApril.date.format buffer client = [0] ∧
      (db.meter client).any (·.due firstInApril) = true ∧
      ∃ db' f',
        run flushMachine (db, Flush.start buffer "" lastSecondOfMarch)
            (List.replicate 5 ⟨firstInApril, true, 0⟩) = some (db', f') ∧
          f'.position = .done ∧ db'.totals client = some (5, 7) ∧
          db'.totals client ≠ some (0 + [(0 : Bytes)].sum) := by
  refine ⟨rfl, by decide, _, _, rfl, rfl, rfl, ?_⟩
  exact fun h ↦ absurd (Option.some.inj h) (by decide)

end Oxiproxy.Controller
