import Oxiproxy.Controller.Subscriptions

/-!
# The ledger of a user's quotas

A subscription counts when it is active and marked as merged.  A quota of a user
should be its base plus the shares of the subscriptions that count.  Between the
two writes of an operation, the one to the user and the one to the subscription,
the operation holds the difference; a step keeps the books when it leaves no
difference behind that it does not hold.
-/

namespace Oxiproxy.Controller

open Transition

inductive QuotaField
  | traffic
  | ports
  | nodes
  | clients
  deriving DecidableEq

instance : Fintype QuotaField :=
  ⟨{.traffic, .ports, .nodes, .clients}, fun f ↦ by cases f <;> decide⟩

def User.quota (u : User) : QuotaField → Option ℚ
  | .traffic => u.trafficQuotaGb
  | .ports => u.maxPortCount.map Int.cast
  | .nodes => u.maxNodeCount.map Int.cast
  | .clients => u.maxClientCount.map Int.cast

def QuotaSnapshot.quota (q : QuotaSnapshot) : QuotaField → Option ℚ
  | .traffic => some q.trafficQuotaGb
  | .ports => q.maxPortCount.map Int.cast
  | .nodes => q.maxNodeCount.map Int.cast
  | .clients => q.maxClientCount.map Int.cast

/-- What a change of quota by `x` adds. -/
def QuotaChange.signed : QuotaChange → ℚ → ℚ
  | .merge, x => x
  | .rollback, x => -x

/-- What is kept of a result in a field. -/
def Numbers.keep (numbers : Numbers) : QuotaField → ℚ → ℚ
  | .traffic => numbers.gb
  | .ports | .nodes | .clients => fun q ↦ numbers.limit ⌊q⌋

/-- The result of the change can be kept as it is. -/
def Numbers.Fits (numbers : Numbers) (f : QuotaField) (change : QuotaChange) (current x : ℚ) :
    Prop :=
  numbers.keep f (current + change.signed x) = current + change.signed x

theorem QuotaChange.cast_amount (numbers : Numbers) (change : QuotaChange) (a b : ℤ) :
    ((change.amount numbers.limit a b : ℤ) : ℚ) =
      change.amount (fun q : ℚ ↦ (numbers.limit ⌊q⌋ : ℚ)) a b := by
  cases change with
  | merge =>
      have hfloor : ⌊(a : ℚ) + b⌋ = a + b := by rw [← Int.cast_add, Int.floor_intCast]
      simp only [amount, hfloor]
  | rollback =>
      have hfloor : ⌊(a : ℚ) - b⌋ = a - b := by rw [← Int.cast_sub, Int.floor_intCast]
      simp only [amount, hfloor, Int.cast_max, Int.cast_zero]

theorem QuotaChange.amount_eq {numbers : Numbers} {f : QuotaField} {change : QuotaChange}
    {current q : ℚ} (hfits : numbers.Fits f change current q)
    (h : change = .rollback → q ≤ current) :
    change.amount (numbers.keep f) current q = current + change.signed q := by
  cases change with
  | merge => exact hfits
  | rollback =>
      have hle := sub_nonneg.mpr (h rfl)
      have hkept : numbers.keep f (current - q) = current - q := by
        simpa only [Numbers.Fits, signed, ← sub_eq_add_neg] using hfits
      rw [amount, hkept, max_eq_left hle, signed, sub_eq_add_neg]

theorem QuotaChange.cast_limit (numbers : Numbers) (change : QuotaChange)
    (read q current : Option ℤ) :
    (change.limit numbers read q current).map (Int.cast : ℤ → ℚ) =
      match q.map Int.cast with
      | some x => some (change.amount (fun q : ℚ ↦ (numbers.limit ⌊q⌋ : ℚ))
          ((read.map Int.cast).getD 0) x)
      | none => current.map Int.cast := by
  cases q with
  | none => rfl
  | some n =>
      have hread : ((read.getD 0 : ℤ) : ℚ) = (read.map Int.cast).getD 0 := by
        cases read <;> simp
      simp only [limit, Option.map_some, cast_amount, hread]

/-- A change of quota writes the columns the subscription has a quota for. -/
theorem QuotaChange.quota_apply (numbers : Numbers) (change : QuotaChange) (read : User)
    (q : QuotaSnapshot) (now : NaiveDateTime) (u : User) (f : QuotaField) :
    (change.apply numbers read q now u).quota f =
      match q.quota f with
      | some x => some (change.amount (numbers.keep f) ((read.quota f).getD 0) x)
      | none => u.quota f := by
  cases f with
  | traffic => rfl
  | ports => exact change.cast_limit numbers read.maxPortCount q.maxPortCount u.maxPortCount
  | nodes => exact change.cast_limit numbers read.maxNodeCount q.maxNodeCount u.maxNodeCount
  | clients =>
      exact change.cast_limit numbers read.maxClientCount q.maxClientCount u.maxClientCount

/-- Active and marked as merged. -/
def UserSubscription.counts (sub : UserSubscription) : Bool := sub.isActive && sub.quotaMerged

/-! ## The books of one user and field -/

section Books

variable (uid : ℤ) (f : QuotaField)

/-- What a subscription adds to the quota of the user while it counts. -/
def UserSubscription.share (sub : UserSubscription) : ℚ :=
  if sub.userId = uid then (sub.snapshot.quota f).getD 0 else 0

def UserSubscription.counted (sub : UserSubscription) : ℚ :=
  if sub.counts then sub.share uid f else 0

def Db.counted (db : Db) : ℚ := db.userSubscriptions.sumOver (·.counted uid f)

/-- The quota of the user, zero when it is absent. -/
def Db.quota (db : Db) : ℚ := ((db.users.find uid).bind (·.quota f)).getD 0

/-- The difference an operation has made with a change of quota. -/
def UserSubscription.made (sub : UserSubscription) : Option (QuotaChange × Bool) → ℚ
  | some (change, true) => change.signed (sub.share uid f)
  | _ => 0

def SubscriptionHandler.held : SubscriptionHandler → ℚ
  | .mergeCreated sub _ => -sub.share uid f
  | .updateRow sub _ changed => sub.made uid f changed
  | .deleteRow sub changed => sub.made uid f changed
  | _ => 0

def ExpirySweep.held : ExpirySweep → ℚ
  | .deactivate sub _ _ changed => sub.made uid f changed
  | _ => 0

/-- The quota is the base, the shares of the subscriptions that count and the
differences that are held. -/
def Balanced (base : ℚ) (s : SubscriptionState) : Prop :=
  s.db.quota uid f = base + s.db.counted uid f + s.handler.held uid f + s.sweep.held uid f

end Books

/-! ## What the operations know when they write -/

/-- The user that is written is the one of the subscription. -/
def QuotaStage.Of (sub : UserSubscription) : QuotaStage → Prop
  | .findUser => True
  | .updateUser read => read.id = sub.userId

/-- When an update changes the quota. -/
def UserSubscription.Adjusts (sub : UserSubscription) (req : UpdateUserSubscriptionRequest) :
    QuotaChange → Prop
  | .merge => sub.isActive = false ∧ req.isActive = some true
  | .rollback => sub.counts = true ∧ req.isActive = some false

def SubscriptionHandler.Planned : SubscriptionHandler → Prop
  | .mergeCreated sub stage => stage.Of sub
  | .adjust sub req change stage => sub.Adjusts req change ∧ stage.Of sub
  | .updateRow sub req changed => ∀ c ∈ changed, sub.Adjusts req c.1
  | .rollbackDeleted sub stage => sub.counts = true ∧ stage.Of sub
  | .deleteRow sub changed => ∀ c ∈ changed, c.1 = .rollback ∧ sub.counts = true
  | _ => True

def ExpirySweep.Planned : ExpirySweep → Prop
  | .next subs _ => ∀ sub ∈ subs, sub.isActive = true
  | .rollback sub rest _ stage =>
      sub.counts = true ∧ stage.Of sub ∧ ∀ sub ∈ rest, sub.isActive = true
  | .deactivate sub rest _ changed =>
      (∀ c ∈ changed, c.1 = .rollback ∧ sub.counts = true) ∧ ∀ sub ∈ rest, sub.isActive = true
  | _ => True

section QuotaStep

variable {numbers : Numbers} {env : SubscriptionEnv} {db : Db} {change : QuotaChange}
  {sub : UserSubscription}
  {stage : QuotaStage} {result : QuotaStage ⊕ Bool} {db' : Db}

theorem quotaStep_userSubscriptions (h : quotaStep numbers env db change sub stage = (db', result)) :
    db'.userSubscriptions = db.userSubscriptions := by
  cases stage with
  | findUser =>
      simp only [quotaStep] at h
      split at h <;> cases h <;> rfl
  | updateUser read =>
      simp only [quotaStep] at h
      split_ifs at h <;> cases h <;> rfl

theorem quotaStep_stage {next : QuotaStage}
    (h : quotaStep numbers env db change sub stage = (db', .inl next)) :
    stage = .findUser ∧ env.ok = true ∧ db' = db ∧
      ∃ read, db.users.find sub.userId = some read ∧ next = .updateUser read := by
  cases stage with
  | findUser =>
      simp only [quotaStep] at h
      split at h <;> cases h
      rename_i read hread
      have hok : env.ok = true := by
        by_contra hne
        simp [hne] at hread
      rw [if_pos hok] at hread
      exact ⟨rfl, hok, rfl, read, hread, rfl⟩
  | updateUser read =>
      simp only [quotaStep] at h
      split_ifs at h <;> cases h

theorem quotaStep_stage_of {next : QuotaStage}
    (h : quotaStep numbers env db change sub stage = (db', .inl next)) : next.Of sub := by
  obtain ⟨-, -, -, read, hread, rfl⟩ := quotaStep_stage h
  exact Table.key_of_find hread

end QuotaStep

theorem updateFound_planned (sub : UserSubscription) (req : UpdateUserSubscriptionRequest) :
    (updateFound sub req).Planned := by
  unfold updateFound
  split_ifs with hrollback hmerge
  · obtain ⟨hactive, hreq, hmerged⟩ := hrollback
    exact ⟨⟨by simp [UserSubscription.counts, hactive, hmerged], hreq⟩, trivial⟩
  · exact ⟨⟨by simpa using hmerge.1, hmerge.2⟩, trivial⟩
  · exact nofun

variable {numbers : Numbers} {chrono : Chrono} {env : SubscriptionEnv} {s t : SubscriptionState}

theorem SubscriptionHandler.Planned.step (hs : s.handler.Planned)
    (hstep : handlerStep numbers chrono env s = some t) : t.handler.Planned := by
  unfold handlerStep at hstep
  cases hpos : s.handler with
  | idle reply =>
      rw [hpos] at hstep
      cases hstep
  | findUser req =>
      rw [hpos] at hstep
      simp only at hstep
      split_ifs at hstep <;> cases hstep <;> trivial
  | findSubscription req =>
      rw [hpos] at hstep
      simp only at hstep
      split_ifs at hstep
      · split at hstep <;> cases hstep <;> trivial
      · cases hstep
        trivial
  | insert req plan =>
      rw [hpos] at hstep
      simp only at hstep
      split_ifs at hstep <;> cases hstep <;> trivial
  | mergeCreated sub stage =>
      rw [hpos] at hstep hs
      simp only at hstep
      rcases hresult : quotaStep numbers env s.db .merge sub stage with ⟨db, next | done⟩ <;>
        rw [hresult] at hstep <;> cases hstep
      · exact quotaStep_stage_of hresult
      · trivial
  | findToUpdate id req =>
      rw [hpos] at hstep
      simp only at hstep
      split_ifs at hstep
      · split at hstep <;> cases hstep
        · exact updateFound_planned _ _
        · trivial
      · cases hstep
        trivial
  | adjust sub req change stage =>
      rw [hpos] at hstep hs
      simp only at hstep
      rcases hresult : quotaStep numbers env s.db change sub stage with ⟨db, next | done⟩ <;>
        rw [hresult] at hstep <;> cases hstep
      · exact ⟨hs.1, quotaStep_stage_of hresult⟩
      · intro c hc
        cases hc
        exact hs.1
  | updateRow sub req changed =>
      rw [hpos] at hstep
      simp only at hstep
      split at hstep <;> cases hstep <;> trivial
  | findToDelete id =>
      rw [hpos] at hstep
      simp only at hstep
      split_ifs at hstep
      · split at hstep <;> cases hstep
        · rename_i sub hsub
          simp only
          split_ifs with hcounts
          · exact ⟨hcounts, trivial⟩
          · intro c hc
            cases hc
        · trivial
      · cases hstep
        trivial
  | rollbackDeleted sub stage =>
      rw [hpos] at hstep hs
      simp only at hstep
      rcases hresult : quotaStep numbers env s.db .rollback sub stage with ⟨db, next | done⟩ <;>
        rw [hresult] at hstep <;> cases hstep
      · exact ⟨hs.1, quotaStep_stage_of hresult⟩
      · intro c hc
        cases hc
        exact ⟨rfl, hs.1⟩
  | deleteRow sub changed =>
      rw [hpos] at hstep
      simp only at hstep
      split_ifs at hstep <;> cases hstep <;> trivial

/-- A step of a handler leaves the sweep alone. -/
theorem handlerStep_sweep (hstep : handlerStep numbers chrono env s = some t) : t.sweep = s.sweep := by
  unfold handlerStep at hstep
  split at hstep
  all_goals try simp only at hstep
  all_goals try split_ifs at hstep
  all_goals try split at hstep
  all_goals cases hstep <;> rfl

theorem sweepStep_handler (hstep : sweepStep numbers env s = some t) : t.handler = s.handler := by
  unfold sweepStep at hstep
  split at hstep
  all_goals try split_ifs at hstep
  all_goals cases hstep
  all_goals rfl

theorem ExpirySweep.Planned.step (hs : s.sweep.Planned) (hstep : sweepStep numbers env s = some t) :
    t.sweep.Planned := by
  unfold sweepStep at hstep
  cases hpos : s.sweep with
  | idle =>
      rw [hpos] at hstep
      cases hstep
  | find now =>
      rw [hpos] at hstep
      simp only at hstep
      split_ifs at hstep <;> cases hstep
      · intro sub hsub
        have hkept := (List.mem_filter.mp hsub).2
        exact (Bool.and_eq_true_iff.mp hkept).1
      · trivial
  | next subs now =>
      rw [hpos] at hstep hs
      cases subs with
      | nil =>
          cases hstep
          trivial
      | cons sub rest =>
          cases hstep
          have hactive : sub.isActive = true := hs sub List.mem_cons_self
          have hrest : ∀ sub ∈ rest, sub.isActive = true :=
            fun sub hsub ↦ hs sub (List.mem_cons_of_mem _ hsub)
          simp only
          split_ifs with hmerged
          · exact ⟨by simp [UserSubscription.counts, hactive, hmerged], trivial, hrest⟩
          · exact ⟨nofun, hrest⟩
  | rollback sub rest now stage =>
      rw [hpos] at hstep hs
      obtain ⟨hcounts, -, hrest⟩ := hs
      simp only at hstep
      rcases hresult : quotaStep numbers env s.db .rollback sub stage with ⟨db, next | done⟩
      · rw [hresult] at hstep
        cases hstep
        exact ⟨hcounts, quotaStep_stage_of hresult, hrest⟩
      · rw [hresult] at hstep
        cases hstep
        cases done with
        | false => exact hrest
        | true =>
            refine ⟨fun c hc ↦ ?_, hrest⟩
            cases hc
            exact ⟨rfl, hcounts⟩
  | deactivate sub rest now changed =>
      rw [hpos] at hstep hs
      simp only at hstep
      split_ifs at hstep <;> cases hstep <;> exact hs.2

/-! ## Steps that keep the books -/

section Keeps

variable (numbers) (uid : ℤ) (f : QuotaField)

/-- The quota that is written is still the one that was read, its new value can be kept
as it is, and a rollback takes away no more than there is. -/
def QuotaStage.Exact (env : SubscriptionEnv) (db : Db) (change : QuotaChange)
    (sub : UserSubscription) : QuotaStage → Prop
  | .findUser => True
  | .updateUser read =>
      sub.userId = uid → env.ok = true → ∀ x ∈ sub.snapshot.quota f, ∀ u ∈ db.users.find read.id,
        (u.quota f).getD 0 = (read.quota f).getD 0 ∧
          numbers.Fits f change ((read.quota f).getD 0) x ∧
          (change = .rollback → x ≤ (read.quota f).getD 0)

/-- The call succeeds and finds the user. -/
def QuotaStage.Succeeds (env : SubscriptionEnv) (db : Db) (sub : UserSubscription) :
    QuotaStage → Prop
  | .findUser => env.ok = true ∧ (db.users.find sub.userId).isSome = true
  | .updateUser read => env.ok = true ∧ (db.users.find read.id).isSome = true

/-- The row a write to the subscription changes. -/
def UserSubscription.target (sub : UserSubscription) (env : SubscriptionEnv) (db : Db) :
    Option UserSubscription :=
  if env.ok then db.userSubscriptions.find sub.id else none

/-- A write to the subscription after its quota was changed finds the row as it
was read; without that it does not change whether the row counts. -/
def UserSubscription.Follows (sub : UserSubscription) (row : Option UserSubscription)
    (countsAfter : UserSubscription → Bool) : Option (QuotaChange × Bool) → Prop
  | some (_, true) =>
      (row.map (·.share uid f)).getD 0 = sub.share uid f ∧
        ∀ r ∈ row, r.share uid f ≠ 0 → r.counts = sub.counts
  | _ => ∀ r ∈ row, r.share uid f ≠ 0 → countsAfter r = r.counts

/-- What an update makes of whether a row counts. -/
def UserSubscription.countsAfter (req : UpdateUserSubscriptionRequest)
    (changed : Option (QuotaChange × Bool)) (row : UserSubscription) : Bool :=
  req.isActive.getD row.isActive && (row.quotaMerged || changed.any (·.1 = .merge))

def SubscriptionHandler.Keeps (env : SubscriptionEnv) (db : Db) : SubscriptionHandler → Prop
  | .mergeCreated sub stage =>
      stage.Exact numbers uid f env db .merge sub ∧ (sub.share uid f ≠ 0 → stage.Succeeds env db sub)
  | .adjust sub _ change stage => stage.Exact numbers uid f env db change sub
  | .updateRow sub req changed =>
      sub.Follows uid f (sub.target env db) (UserSubscription.countsAfter req changed) changed
  | .rollbackDeleted sub stage => stage.Exact numbers uid f env db .rollback sub
  | .deleteRow sub changed => sub.Follows uid f (sub.target env db) (fun _ ↦ false) changed
  | _ => True

def ExpirySweep.Keeps (env : SubscriptionEnv) (db : Db) : ExpirySweep → Prop
  | .rollback sub _ _ stage => stage.Exact numbers uid f env db .rollback sub
  | .deactivate sub _ _ changed => sub.Follows uid f (sub.target env db) (fun _ ↦ false) changed
  | _ => True

/-- The step keeps the books of the user's quota. -/
def KeepsBooks (s : SubscriptionState) : SubscriptionInput → Prop
  | .handler env => s.handler.Keeps numbers uid f env s.db
  | .sweep env => s.sweep.Keeps numbers uid f env s.db
  | _ => True

instance (env : SubscriptionEnv) (db : Db) (change : QuotaChange) (sub : UserSubscription)
    (stage : QuotaStage) : Decidable (stage.Exact numbers uid f env db change sub) := by
  unfold QuotaStage.Exact Numbers.Fits
  split <;> infer_instance

instance (env : SubscriptionEnv) (db : Db) (sub : UserSubscription) (stage : QuotaStage) :
    Decidable (stage.Succeeds env db sub) := by
  unfold QuotaStage.Succeeds
  split <;> infer_instance

instance (sub : UserSubscription) (row : Option UserSubscription)
    (countsAfter : UserSubscription → Bool) (changed : Option (QuotaChange × Bool)) :
    Decidable (sub.Follows uid f row countsAfter changed) := by
  unfold UserSubscription.Follows
  split <;> infer_instance

instance (s : SubscriptionState) (input : SubscriptionInput) :
    Decidable (KeepsBooks numbers uid f s input) := by
  unfold KeepsBooks SubscriptionHandler.Keeps ExpirySweep.Keeps
  split
  · split <;> infer_instance
  · split <;> infer_instance
  · infer_instance

end Keeps

section Balance

variable {uid : ℤ} {f : QuotaField} {base : ℚ}

theorem quotaStep_quota {env : SubscriptionEnv} {db db' : Db} {change : QuotaChange}
    {sub : UserSubscription} {stage : QuotaStage} {done : Bool} (hof : stage.Of sub)
    (hexact : stage.Exact numbers uid f env db change sub)
    (h : quotaStep numbers env db change sub stage = (db', .inr done)) :
    db'.quota uid f = db.quota uid f + sub.made uid f (some (change, done)) := by
  cases stage with
  | findUser =>
      simp only [quotaStep] at h
      split at h <;> cases h
      exact (add_zero _).symm
  | updateUser read =>
      simp only [quotaStep] at h
      split_ifs at h with hok <;> cases h
      · obtain ⟨hok, huser⟩ := hok
        obtain ⟨u, hu⟩ := Option.isSome_iff_exists.mp huser
        have hid : read.id = sub.userId := hof
        unfold Db.quota UserSubscription.made UserSubscription.share
        simp only [Table.find_modify]
        by_cases huid : sub.userId = uid
        · subst huid
          have hu' : db.users.find sub.userId = some u := hid ▸ hu
          simp only [hid, hu', if_true, Option.map_some, Option.bind_some, QuotaChange.quota_apply]
          cases hq : sub.snapshot.quota f with
          | none => cases change <;> simp [QuotaChange.signed]
          | some x =>
              obtain ⟨hread, hfits, hle⟩ := hexact rfl hok x hq u hu
              simp only [Option.getD_some, hread]
              exact QuotaChange.amount_eq hfits hle
        · have hne : uid ≠ read.id := fun heq ↦ huid (hid.symm.trans heq.symm)
          simp only [if_neg hne, if_neg huid]
          cases change <;> simp [QuotaChange.signed]
      · exact (add_zero _).symm

theorem quotaStep_done {env : SubscriptionEnv} {db db' : Db} {change : QuotaChange}
    {sub : UserSubscription} {stage : QuotaStage} {done : Bool} (hsucceeds : stage.Succeeds env db sub)
    (h : quotaStep numbers env db change sub stage = (db', .inr done)) : done = true := by
  cases stage with
  | findUser =>
      obtain ⟨hok, huser⟩ := hsucceeds
      obtain ⟨u, hu⟩ := Option.isSome_iff_exists.mp huser
      simp only [quotaStep, hok, hu, if_true] at h
      cases h
  | updateUser read =>
      obtain ⟨hok, huser⟩ := hsucceeds
      simp only [quotaStep, if_pos (And.intro hok huser)] at h
      cases h
      rfl

theorem quotaStep_counted (uid : ℤ) (f : QuotaField) {env : SubscriptionEnv} {db db' : Db}
    {change : QuotaChange} {sub : UserSubscription} {stage : QuotaStage}
    {result : QuotaStage ⊕ Bool}
    (h : quotaStep numbers env db change sub stage = (db', result)) :
    db'.counted uid f = db.counted uid f := by
  unfold Db.counted
  rw [quotaStep_userSubscriptions h]

/-- A write to the subscription settles the difference its operation made. -/
theorem UserSubscription.Follows.settles {sub : UserSubscription} {row : Option UserSubscription}
    {countsAfter : UserSubscription → Bool} {changed : Option (QuotaChange × Bool)}
    (h : sub.Follows uid f row countsAfter changed)
    (hchanged : ∀ c ∈ changed, sub.counts = decide (c.1 = .rollback) ∧
      ∀ r, countsAfter r = decide (c.1 = .merge)) :
    (row.map fun r ↦ if countsAfter r then r.share uid f else 0).getD 0 =
      (row.map (·.counted uid f)).getD 0 + sub.made uid f changed := by
  have hsame : (∀ r ∈ row, r.share uid f ≠ 0 → countsAfter r = r.counts) →
      (row.map fun r ↦ if countsAfter r then r.share uid f else 0).getD 0 =
        (row.map (·.counted uid f)).getD 0 := by
    intro hafter
    cases row with
    | none => rfl
    | some r =>
        simp only [Option.map_some, Option.getD_some, counted]
        by_cases hshare : r.share uid f = 0
        · simp [hshare]
        · rw [hafter r rfl hshare]
  rcases changed with - | ⟨change, - | -⟩
  · exact (hsame h).trans (add_zero _).symm
  · exact (hsame h).trans (add_zero _).symm
  · obtain ⟨hshare, hcounts⟩ := h
    obtain ⟨hsub, hafter⟩ := hchanged _ rfl
    cases row with
    | none =>
        have hzero : sub.share uid f = 0 := hshare.symm
        cases change <;> simp [made, QuotaChange.signed, hzero]
    | some r =>
        have hshare : r.share uid f = sub.share uid f := hshare
        simp only [Option.map_some, Option.getD_some, counted, made, hafter]
        by_cases hzero : r.share uid f = 0
        · have hzero' : sub.share uid f = 0 := hshare.symm.trans hzero
          cases change <;> simp [QuotaChange.signed, hzero, hzero']
        · rw [hcounts r rfl hzero, hsub]
          cases change <;> simp [QuotaChange.signed, hshare]

theorem counted_modify (uid : ℤ) (f : QuotaField) {t : Table UserSubscription} {id : ℤ}
    {row : UserSubscription} (hrow : t.find id = some row) (g : UserSubscription → UserSubscription)
    (hkey : ∀ r, key (g r) = key r) (hshare : (g row).share uid f = row.share uid f) :
    (t.modify id g hkey).sumOver (·.counted uid f) + row.counted uid f =
      t.sumOver (·.counted uid f) + if (g row).counts then row.share uid f else 0 := by
  have hsum := Table.sumOver_modify (fun r ↦ r.counted uid f) hrow g hkey
  rw [hsum, UserSubscription.counted, hshare]

variable {chrono : Chrono} {env : SubscriptionEnv} {s t : SubscriptionState}

theorem SubscriptionHandler.Planned.settles_update {sub : UserSubscription}
    {req : UpdateUserSubscriptionRequest} {changed : Option (QuotaChange × Bool)}
    (h : (SubscriptionHandler.updateRow sub req changed).Planned) :
    ∀ c ∈ changed, sub.counts = decide (c.1 = .rollback) ∧
      ∀ r, UserSubscription.countsAfter req changed r = decide (c.1 = .merge) := by
  rintro ⟨change, done⟩ rfl
  have hadjusts := h _ rfl
  cases change with
  | merge =>
      obtain ⟨hactive, hreq⟩ := hadjusts
      exact ⟨by simp [UserSubscription.counts, hactive],
        fun r ↦ by simp [UserSubscription.countsAfter, hreq]⟩
  | rollback =>
      obtain ⟨hcounts, hreq⟩ := hadjusts
      exact ⟨by simp [hcounts], fun r ↦ by simp [UserSubscription.countsAfter, hreq]⟩

/-- A rollback is followed by a write after which the row does not count. -/
theorem settles_rollback {sub : UserSubscription} {changed : Option (QuotaChange × Bool)}
    (h : ∀ c ∈ changed, c.1 = .rollback ∧ sub.counts = true) :
    ∀ c ∈ changed, sub.counts = decide (c.1 = .rollback) ∧
      ∀ _ : UserSubscription, false = decide (c.1 = .merge) := by
  intro c hc
  obtain ⟨hrollback, hcounts⟩ := h c hc
  exact ⟨by simp [hrollback, hcounts], fun _ ↦ by simp [hrollback]⟩

theorem updateFound_held (sub : UserSubscription) (req : UpdateUserSubscriptionRequest) :
    (updateFound sub req).held uid f = 0 := by
  unfold updateFound
  split_ifs <;> rfl

theorem Balanced.handlerStep (hs : Balanced uid f base s) (hplanned : s.handler.Planned)
    (hkeeps : s.handler.Keeps numbers uid f env s.db) (hstep : handlerStep numbers chrono env s = some t) :
    Balanced uid f base t := by
  unfold Controller.handlerStep at hstep
  unfold Balanced at hs ⊢
  cases hpos : s.handler with
  | idle reply =>
      rw [hpos] at hstep
      cases hstep
  | findUser req =>
      rw [hpos] at hstep hs
      simp only at hstep
      split_ifs at hstep <;> cases hstep <;> exact hs
  | findSubscription req =>
      rw [hpos] at hstep hs
      simp only at hstep
      split_ifs at hstep
      · split at hstep <;> cases hstep <;> exact hs
      · cases hstep
        exact hs
  | insert req plan =>
      rw [hpos] at hstep hs
      simp only at hstep
      split_ifs at hstep <;> cases hstep
      · have hcounted := Table.sumOver_insert (fun r ↦ r.counted uid f) s.db.userSubscriptions
          (plan.subscribe chrono req env.rowId env.now) ‹_›
        have hnew : (plan.subscribe chrono req env.rowId env.now).counted uid f =
            (plan.subscribe chrono req env.rowId env.now).share uid f := rfl
        simp only [Db.counted, Db.quota, SubscriptionHandler.held] at hs ⊢
        rw [hcounted, hnew]
        linarith
      · exact hs
  | mergeCreated sub stage =>
      rw [hpos] at hstep hs hplanned hkeeps
      obtain ⟨hexact, hsucceeds⟩ := hkeeps
      simp only at hstep
      rcases hresult : quotaStep numbers env s.db .merge sub stage with ⟨db, next | done⟩ <;>
        rw [hresult] at hstep <;> cases hstep
      · obtain ⟨-, -, rfl, -⟩ := quotaStep_stage hresult
        exact hs
      · have hquota := quotaStep_quota hplanned hexact hresult
        have hmade : sub.made uid f (some (.merge, done)) = sub.share uid f := by
          by_cases hshare : sub.share uid f = 0
          · cases done <;> simp [UserSubscription.made, QuotaChange.signed, hshare]
          · rw [quotaStep_done (hsucceeds hshare) hresult]
            rfl
        simp only [SubscriptionHandler.held, quotaStep_counted uid f hresult] at hs ⊢
        linarith
  | findToUpdate id req =>
      rw [hpos] at hstep hs
      simp only at hstep
      split_ifs at hstep
      · split at hstep <;> cases hstep
        · simp only [updateFound_held]
          exact hs
        · exact hs
      · cases hstep
        exact hs
  | adjust sub req change stage =>
      rw [hpos] at hstep hs hplanned hkeeps
      simp only at hstep
      rcases hresult : quotaStep numbers env s.db change sub stage with ⟨db, next | done⟩ <;>
        rw [hresult] at hstep <;> cases hstep
      · obtain ⟨-, -, rfl, -⟩ := quotaStep_stage hresult
        exact hs
      · have hquota := quotaStep_quota hplanned.2 hkeeps hresult
        simp only [SubscriptionHandler.held, quotaStep_counted uid f hresult] at hs ⊢
        linarith
  | updateRow sub req changed =>
      rw [hpos] at hstep hs hplanned hkeeps
      have hsettles := hkeeps.settles hplanned.settles_update
      unfold UserSubscription.target at hsettles
      simp only at hstep
      split at hstep <;> cases hstep
      · rename_i row hrow
        have hok : env.ok = true := by
          by_contra hne
          simp [hne] at hrow
        rw [if_pos hok] at hrow hsettles
        have hmodify := counted_modify uid f hrow (·.applyUpdate req changed env.now)
          (UserSubscription.key_applyUpdate req changed env.now) rfl
        simp only [hrow, Option.map_some, Option.getD_some] at hsettles
        simp only [Db.counted, Db.quota, SubscriptionHandler.held] at hs ⊢
        have hafter : (row.applyUpdate req changed env.now).counts =
            UserSubscription.countsAfter req changed row := rfl
        rw [hafter, hsettles] at hmodify
        linarith
      · rename_i hnone
        simp only [hnone, Option.map_none, Option.getD_none, zero_add] at hsettles
        simp only [SubscriptionHandler.held, ← hsettles] at hs ⊢
        exact hs
  | findToDelete id =>
      rw [hpos] at hstep hs
      simp only at hstep
      split_ifs at hstep
      · split at hstep <;> cases hstep
        · simp only
          split_ifs <;> exact hs
        · exact hs
      · cases hstep
        exact hs
  | rollbackDeleted sub stage =>
      rw [hpos] at hstep hs hplanned hkeeps
      simp only at hstep
      rcases hresult : quotaStep numbers env s.db .rollback sub stage with ⟨db, next | done⟩ <;>
        rw [hresult] at hstep <;> cases hstep
      · obtain ⟨-, -, rfl, -⟩ := quotaStep_stage hresult
        exact hs
      · have hquota := quotaStep_quota hplanned.2 hkeeps hresult
        simp only [SubscriptionHandler.held, quotaStep_counted uid f hresult] at hs ⊢
        linarith
  | deleteRow sub changed =>
      rw [hpos] at hstep hs hplanned hkeeps
      have hsettles := hkeeps.settles (settles_rollback hplanned)
      simp only [UserSubscription.target] at hsettles
      simp only at hstep
      split_ifs at hstep with hok <;> cases hstep
      · rw [if_pos hok] at hsettles
        simp only [Db.counted, Db.quota, SubscriptionHandler.held] at hs ⊢
        cases hrow : s.db.userSubscriptions.find sub.id with
        | none =>
            simp only [hrow, Option.map_none, Option.getD_none, zero_add] at hsettles
            rw [Table.erase_of_find_eq_none hrow]
            linarith
        | some row =>
            have herase := Table.sumOver_erase (fun r ↦ r.counted uid f) hrow
            simp [hrow] at hsettles
            linarith
      · rw [if_neg hok] at hsettles
        simp only [Option.map_none, Option.getD_none, zero_add] at hsettles
        simp only [SubscriptionHandler.held, ← hsettles] at hs ⊢
        exact hs

theorem Balanced.sweepStep (hs : Balanced uid f base s) (hplanned : s.sweep.Planned)
    (hkeeps : s.sweep.Keeps numbers uid f env s.db) (hstep : sweepStep numbers env s = some t) :
    Balanced uid f base t := by
  unfold Controller.sweepStep at hstep
  unfold Balanced at hs ⊢
  cases hpos : s.sweep with
  | idle =>
      rw [hpos] at hstep
      cases hstep
  | find now =>
      rw [hpos] at hstep hs
      simp only at hstep
      split_ifs at hstep <;> cases hstep <;> exact hs
  | next subs now =>
      rw [hpos] at hstep hs
      cases subs with
      | nil =>
          cases hstep
          exact hs
      | cons sub rest =>
          cases hstep
          simp only
          split_ifs <;> exact hs
  | rollback sub rest now stage =>
      rw [hpos] at hstep hs hplanned hkeeps
      simp only at hstep
      rcases hresult : quotaStep numbers env s.db .rollback sub stage with ⟨db, next | done⟩
      · rw [hresult] at hstep
        cases hstep
        obtain ⟨-, -, rfl, -⟩ := quotaStep_stage hresult
        exact hs
      · rw [hresult] at hstep
        cases hstep
        have hquota := quotaStep_quota hplanned.2.1 hkeeps hresult
        have hcounted := quotaStep_counted uid f hresult
        have hs : s.db.quota uid f = base + s.db.counted uid f + s.handler.held uid f := by
          simpa only [ExpirySweep.held, add_zero] using hs
        cases done with
        | false =>
            simp only [ExpirySweep.held, UserSubscription.made] at hquota ⊢
            linarith
        | true =>
            simp only [ExpirySweep.held]
            linarith
  | deactivate sub rest now changed =>
      rw [hpos] at hstep hs hplanned hkeeps
      have hsettles := hkeeps.settles (settles_rollback hplanned.1)
      simp only [UserSubscription.target] at hsettles
      simp only at hstep
      split_ifs at hstep with hok <;> cases hstep
      · rw [if_pos hok] at hsettles
        simp only [Db.counted, Db.quota, ExpirySweep.held] at hs ⊢
        cases hrow : s.db.userSubscriptions.find sub.id with
        | none =>
            simp only [hrow, Option.map_none, Option.getD_none, zero_add] at hsettles
            rw [Table.modify_of_find_eq_none hrow]
            linarith
        | some row =>
            have hmodify := counted_modify uid f hrow (·.deactivate now)
              (UserSubscription.key_deactivate now) rfl
            have hafter : (row.deactivate now).counts = false := rfl
            simp [hrow] at hsettles
            rw [hafter] at hmodify
            simp only [Bool.false_eq_true, if_false] at hmodify
            linarith
      · rw [if_neg hok] at hsettles
        simp only [Option.map_none, Option.getD_none, zero_add] at hsettles
        simp only [ExpirySweep.held, ← hsettles] at hs ⊢
        exact hs

theorem Balanced.step {input : SubscriptionInput}
    (hs : s.handler.Planned ∧ s.sweep.Planned ∧ Balanced uid f base s)
    (hkeeps : KeepsBooks numbers uid f s input) (hstep : subscriptionStep numbers chrono s input = some t) :
    t.handler.Planned ∧ t.sweep.Planned ∧ Balanced uid f base t := by
  obtain ⟨hhandler, hsweep, hbalanced⟩ := hs
  have hadmin : ∀ auth next, next.held uid f = 0 → next.Planned →
      (requireAdmin auth next).held uid f = 0 ∧ (requireAdmin auth next).Planned := by
    intro auth next hheld hplanned
    cases auth with
    | none => exact ⟨rfl, trivial⟩
    | some user =>
        simp only [requireAdmin]
        split_ifs
        · exact ⟨hheld, hplanned⟩
        · exact ⟨rfl, trivial⟩
  have hrequest : ∀ auth next, next.held uid f = 0 → next.Planned → s.handler.held uid f = 0 →
      some { s with handler := requireAdmin auth next } = some t →
      t.handler.Planned ∧ t.sweep.Planned ∧ Balanced uid f base t := by
    rintro auth next hheld hplanned hidle ⟨⟩
    obtain ⟨hheld', hplanned'⟩ := hadmin auth next hheld hplanned
    refine ⟨hplanned', hsweep, ?_⟩
    unfold Balanced at hbalanced ⊢
    rw [hidle] at hbalanced
    simpa only [hheld'] using hbalanced
  cases input with
  | create auth req =>
      simp only [subscriptionStep] at hstep
      split at hstep
      · rename_i hpos
        exact hrequest auth (.findUser req) rfl trivial (by rw [hpos]; rfl) hstep
      · cases hstep
  | update auth id req =>
      simp only [subscriptionStep] at hstep
      split at hstep
      · rename_i hpos
        exact hrequest auth (.findToUpdate id req) rfl trivial (by rw [hpos]; rfl) hstep
      · cases hstep
  | delete auth id =>
      simp only [subscriptionStep] at hstep
      split at hstep
      · rename_i hpos
        exact hrequest auth (.findToDelete id) rfl trivial (by rw [hpos]; rfl) hstep
      · cases hstep
  | handler env =>
      have hsame := handlerStep_sweep hstep
      refine ⟨hhandler.step hstep, ?_, hbalanced.handlerStep hhandler hkeeps hstep⟩
      rw [hsame]
      exact hsweep
  | expire now =>
      simp only [subscriptionStep] at hstep
      split at hstep
      · rename_i hpos
        cases hstep
        refine ⟨hhandler, trivial, ?_⟩
        unfold Balanced at hbalanced ⊢
        rw [hpos] at hbalanced
        exact hbalanced
      · cases hstep
  | sweep env =>
      have hsame := sweepStep_handler hstep
      refine ⟨?_, hsweep.step hstep, hbalanced.sweepStep hsweep hkeeps hstep⟩
      rw [hsame]
      exact hhandler

theorem SubscriptionState.Quiescent.planned (hs : s.Quiescent) :
    s.handler.Planned ∧ s.sweep.Planned := by
  obtain ⟨⟨reply, hhandler⟩, hsweep⟩ := hs
  rw [hhandler, hsweep]
  exact ⟨trivial, trivial⟩

theorem SubscriptionState.Quiescent.held (hs : s.Quiescent) (uid : ℤ) (f : QuotaField) :
    s.handler.held uid f = 0 ∧ s.sweep.held uid f = 0 := by
  obtain ⟨⟨reply, hhandler⟩, hsweep⟩ := hs
  rw [hhandler, hsweep]
  exact ⟨rfl, rfl⟩

theorem Balanced.of_run {inputs : List SubscriptionInput} (hs : s.Quiescent)
    (hkeeps : Within (subscriptionStep numbers chrono) (KeepsBooks numbers uid f) s inputs)
    (hrun : run (subscriptionStep numbers chrono) s inputs = some t) :
    Balanced uid f (s.db.quota uid f - s.db.counted uid f) t := by
  have hstart : Balanced uid f (s.db.quota uid f - s.db.counted uid f) s := by
    obtain ⟨hhandler, hsweep⟩ := hs.held uid f
    unfold Balanced
    rw [hhandler, hsweep]
    ring
  have hend := run_invariant (fun s input t hs hkeeps hstep ↦ Balanced.step hs hkeeps hstep)
    ⟨hs.planned.1, hs.planned.2, hstart⟩ hkeeps hrun
  exact hend.2.2

/-- While every step keeps the books, a quota of the user is its base plus the
shares of the subscriptions that count, whenever nothing is under way. -/
theorem quota_ledger (chrono : Chrono) (uid : ℤ) (f : QuotaField) (s t : SubscriptionState)
    (inputs : List SubscriptionInput) (hs : s.Quiescent)
    (hkeeps : Within (subscriptionStep .machine chrono) (KeepsBooks .machine uid f) s inputs)
    (hrun : run (subscriptionStep .machine chrono) s inputs = some t) (ht : t.Quiescent) :
    t.db.quota uid f = (s.db.quota uid f - s.db.counted uid f) + t.db.counted uid f := by
  have hend := Balanced.of_run hs hkeeps hrun
  obtain ⟨hhandler, hsweep⟩ := ht.held uid f
  unfold Balanced at hend
  rw [hend, hhandler, hsweep, add_zero, add_zero]

end Balance

/-! ## A deactivation that stops halfway -/

def SubscriptionHandler.isIdle : SubscriptionHandler → Bool
  | .idle _ => true
  | _ => false

def ExpirySweep.isIdle : ExpirySweep → Bool
  | .idle => true
  | _ => false

instance (s : SubscriptionState) : Decidable s.Quiescent :=
  decidable_of_iff (s.handler.isIdle = true ∧ s.sweep.isIdle = true) <| by
    unfold SubscriptionState.Quiescent
    cases s.handler <;> cases s.sweep <;>
      simp [SubscriptionHandler.isIdle, ExpirySweep.isIdle]

/-- A user without quotas of its own. -/
def subscriber (id : ℤ) (maxPortCount : Option ℤ) : User where
  id
  username := "u"
  passwordHash := ""
  isAdmin := false
  totalBytesSent := 0
  totalBytesReceived := 0
  trafficResetCycle := "none"
  lastResetAt := none
  isTrafficExceeded := false
  trafficQuotaGb := none
  maxPortCount
  allowedPortRange := none
  maxNodeCount := none
  maxClientCount := none
  createdAt := default
  updatedAt := default

def subscriberState (maxPortCount : Option ℤ) : SubscriptionState where
  db :=
    { users := ⟨[subscriber 1 maxPortCount], by simp⟩, clients := .empty, nodes := .empty
      proxies := .empty, trafficDaily := .empty, userSubscriptions := .empty }
  handler := .idle none
  sweep := .idle
  merges := []

/-- A clock that stands still. -/
def still : Chrono := ⟨fun _ ↦ none, fun d _ ↦ d⟩

def root : Option AuthUser := some ⟨9, "root", true⟩

def threePorts : Subscription := ⟨4, "monthly", 1, 10, some 3, none, none⟩

def subscriptionCall (ok : Bool) : SubscriptionInput :=
  .handler ⟨ok, "", default, 5, some threePorts⟩

def subscribeToThreePorts : List SubscriptionInput :=
  .create root ⟨1, 4, none⟩ :: List.replicate 5 (subscriptionCall true)

def deactivateSubscription (written : Bool) : List SubscriptionInput :=
  .update root 5 ⟨some false, none⟩ ::
    (List.replicate 3 (subscriptionCall true) ++ [subscriptionCall written])

/-- The rollback takes place and the write to the subscription fails: the
subscription still counts, and its ports are gone. -/
theorem not_ledger_failed_write :
    (subscriberState none).Quiescent ∧
      ∃ t ∈ run (subscriptionStep .machine still) (subscriberState none)
          (subscribeToThreePorts ++ deactivateSubscription false),
        t.Quiescent ∧ (subscriberState none).db.quota 1 .ports = 0 ∧
          (subscriberState none).db.counted 1 .ports = 0 ∧ t.db.quota 1 .ports = 0 ∧
          t.db.counted 1 .ports = 3 := by
  decide +kernel

theorem quota_ledger_deactivated :
    ∃ t ∈ run (subscriptionStep .machine still) (subscriberState none)
        (subscribeToThreePorts ++ deactivateSubscription true),
      t.db.quota 1 .ports =
        ((subscriberState none).db.quota 1 .ports - (subscriberState none).db.counted 1 .ports) +
          t.db.counted 1 .ports := by
  obtain ⟨t, ht, hquiescent⟩ : ∃ t ∈ run (subscriptionStep .machine still) (subscriberState none)
      (subscribeToThreePorts ++ deactivateSubscription true), t.Quiescent := by decide +kernel
  exact ⟨t, ht, quota_ledger still 1 .ports (subscriberState none) t _ (by decide +kernel)
    (by decide +kernel) ht hquiescent⟩

end Oxiproxy.Controller
