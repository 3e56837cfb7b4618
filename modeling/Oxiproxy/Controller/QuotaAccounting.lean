import Oxiproxy.Controller.SubscriptionLedger

/-!
# Quotas after operations that succeed

When the operations succeed and follow one another, what an operation has read
is still in the database when it writes.  Then every step keeps the books, as
long as no rollback is cut off at zero, which a base of at least zero ensures.
-/

namespace Oxiproxy.Controller

open Transition

def QuotaSnapshot.NonNeg (q : QuotaSnapshot) : Prop := ∀ f, ∀ x ∈ q.quota f, 0 ≤ x

def Subscription.snapshot (plan : Subscription) : QuotaSnapshot :=
  ⟨plan.trafficQuotaGb, plan.maxPortCount, plan.maxNodeCount, plan.maxClientCount⟩

/-- No request overlaps a sweep, every call succeeds, and the plans have quotas
of at least zero. -/
def Successful (s : SubscriptionState) : SubscriptionInput → Prop
  | .create _ _ | .update _ _ _ | .delete _ _ => s.sweep.isIdle = true
  | .expire _ => s.handler.isIdle = true
  | .handler env => env.ok = true ∧ ∀ plan ∈ env.plan, plan.snapshot.NonNeg
  | .sweep env => env.ok = true

def SubscriptionState.start (db : Db) : SubscriptionState := ⟨db, .idle none, .idle, []⟩

/-! ## What an operation has read -/

def QuotaStage.Fresh (db : Db) (sub : UserSubscription) : QuotaStage → Prop
  | .findUser => True
  | .updateUser read => db.users.find sub.userId = some read

section Sure

variable (uid : ℤ) (db : Db) (merges : List (ℤ × QuotaSnapshot))

def UserSubscription.Stored (sub : UserSubscription) : Prop :=
  db.userSubscriptions.find sub.id = some sub

def SubscriptionHandler.Sure : SubscriptionHandler → Prop
  | .insert _ plan => plan.snapshot.NonNeg
  | .mergeCreated sub stage => sub.Stored db ∧ stage.Fresh db sub
  | .adjust sub _ _ stage => sub.Stored db ∧ stage.Fresh db sub
  | .updateRow sub req none => sub.Stored db ∧ sub.countsAfter req none = sub.counts
  | .updateRow sub _ (some (change, done)) =>
      sub.Stored db ∧ (sub.userId = uid →
        done = true ∧ (change = .merge → (uid, sub.snapshot) ∈ merges))
  | .rollbackDeleted sub stage => sub.Stored db ∧ stage.Fresh db sub
  | .deleteRow sub none => sub.Stored db ∧ sub.counts = false
  | .deleteRow sub (some (_, done)) => sub.Stored db ∧ (sub.userId = uid → done = true)
  | _ => True

/-- The subscriptions that a sweep found and that are still to be done. -/
def AllStored (subs : List UserSubscription) : Prop :=
  (∀ sub ∈ subs, sub.Stored db) ∧ (subs.map (·.id)).Nodup

def ExpirySweep.Sure : ExpirySweep → Prop
  | .next subs _ => AllStored db subs
  | .rollback sub rest _ stage => AllStored db (sub :: rest) ∧ stage.Fresh db sub
  | .deactivate sub rest _ none => AllStored db (sub :: rest) ∧ sub.counts = false
  | .deactivate sub rest _ (some (_, done)) =>
      AllStored db (sub :: rest) ∧ (sub.userId = uid → done = true)
  | _ => True

end Sure

/-- The operations follow one another, and what they know is true. -/
structure Orderly (uid : ℤ) (s : SubscriptionState) : Prop where
  serial : s.handler.isIdle = true ∨ s.sweep.isIdle = true
  user : (s.db.users.find uid).isSome = true
  rows : ∀ row ∈ s.db.userSubscriptions.rows, row.userId = uid → row.snapshot.NonNeg
  merged : ∀ row ∈ s.db.userSubscriptions.rows, row.userId = uid → row.quotaMerged = true →
    (uid, row.snapshot) ∈ s.merges ∨ ∃ stage, s.handler = .mergeCreated row stage
  handler : s.handler.Sure uid s.db s.merges
  sweep : s.sweep.Sure uid s.db

/-! ## Changes of quota -/

section QuotaStep

variable {uid : ℤ} {env : SubscriptionEnv} {db db' : Db} {change : QuotaChange}
  {sub : UserSubscription} {stage : QuotaStage} {result : QuotaStage ⊕ Bool}

theorem QuotaStage.Fresh.succeeds (hfresh : stage.Fresh db sub) (hok : env.ok = true)
    (huser : (db.users.find sub.userId).isSome = true) : stage.Succeeds env db sub := by
  cases stage with
  | findUser => exact ⟨hok, huser⟩
  | updateUser read =>
      have hid : read.id = sub.userId := Table.key_of_find hfresh
      exact ⟨hok, by rw [hid]; exact huser⟩

theorem quotaStep_fresh {next : QuotaStage}
    (h : quotaStep .exact env db change sub stage = (db', .inl next)) : next.Fresh db' sub := by
  obtain ⟨-, -, rfl, read, hread, rfl⟩ := quotaStep_stage h
  exact hread

theorem quotaStep_user (h : quotaStep .exact env db change sub stage = (db', result))
    (huser : (db.users.find uid).isSome = true) : (db'.users.find uid).isSome = true := by
  cases stage with
  | findUser =>
      simp only [quotaStep] at h
      split at h <;> cases h <;> exact huser
  | updateUser read =>
      simp only [quotaStep] at h
      split_ifs at h <;> cases h
      · simp only [Table.find_modify]
        split_ifs
        · rw [Option.isSome_map]
          exact huser
        · exact huser
      · exact huser

theorem UserSubscription.Stored.of_quotaStep {other : UserSubscription} (hstored : other.Stored db)
    (h : quotaStep .exact env db change sub stage = (db', result)) : other.Stored db' := by
  unfold Stored at hstored ⊢
  rw [quotaStep_userSubscriptions h]
  exact hstored

end QuotaStep

theorem UserSubscription.stored_of_find {db : Db} {id : ℤ} {sub : UserSubscription}
    (h : db.userSubscriptions.find id = some sub) : sub.Stored db := by
  have hid : sub.id = id := Table.key_of_find h
  rw [Stored, hid]
  exact h

theorem updateFound_sure {uid : ℤ} {db : Db} {merges : List (ℤ × QuotaSnapshot)}
    {sub : UserSubscription} (hstored : sub.Stored db) (req : UpdateUserSubscriptionRequest) :
    (updateFound sub req).Sure uid db merges := by
  unfold updateFound
  split_ifs with hrollback hmerge
  · exact ⟨hstored, trivial⟩
  · exact ⟨hstored, trivial⟩
  · refine ⟨hstored, ?_⟩
    rcases hreq : req.isActive with - | b
    · simp [UserSubscription.countsAfter, UserSubscription.counts, hreq]
    · cases b <;> cases hactive : sub.isActive <;>
        simp_all [UserSubscription.countsAfter, UserSubscription.counts]

section Steps

variable {chrono : Chrono} {env : SubscriptionEnv} {uid : ℤ} {s t : SubscriptionState}

/-- A row of the user that is marked as merged was merged, unless it is just
being created. -/
theorem Orderly.merged_of_ne (hs : Orderly uid s)
    (hne : ∀ row stage, s.handler ≠ .mergeCreated row stage) {row : UserSubscription}
    (hrow : row ∈ s.db.userSubscriptions.rows) (huid : row.userId = uid)
    (hmerged : row.quotaMerged = true) : (uid, row.snapshot) ∈ s.merges := by
  rcases hs.merged row hrow huid hmerged with h | ⟨stage, h⟩
  · exact h
  · exact (hne row stage h).elim

theorem Orderly.sweep_isIdle (hs : Orderly uid s) (hstep : handlerStep .exact chrono env s = some t) :
    s.sweep.isIdle = true := by
  rcases hs.serial with hidle | hidle
  · cases hpos : s.handler with
    | idle reply =>
        simp only [handlerStep, hpos] at hstep
        cases hstep
    | _ =>
        rw [hpos] at hidle
        cases hidle
  · exact hidle

/-- A step of a handler that leaves the tables alone. -/
theorem Orderly.advance (hs : Orderly uid s) (hidle : s.sweep.isIdle = true)
    (hne : ∀ row stage, s.handler ≠ .mergeCreated row stage) {next : SubscriptionHandler}
    (hnext : next.Sure uid s.db s.merges) : Orderly uid { s with handler := next } where
  serial := .inr hidle
  user := hs.user
  rows := hs.rows
  merged _ hrow huid hmerged := .inl (hs.merged_of_ne hne hrow huid hmerged)
  handler := hnext
  sweep := hs.sweep

theorem ExpirySweep.sure_of_isIdle {sweep : ExpirySweep} (h : sweep.isIdle = true) (uid : ℤ)
    (db : Db) : sweep.Sure uid db := by
  cases sweep <;> trivial

/-- A call of a change of quota by a handler. -/
theorem Orderly.change (hs : Orderly uid s) (hidle : s.sweep.isIdle = true)
    (hne : ∀ row stage, s.handler ≠ .mergeCreated row stage) {change : QuotaChange}
    {sub : UserSubscription} {stage : QuotaStage} {db : Db} {result : QuotaStage ⊕ Bool}
    (hresult : quotaStep .exact env s.db change sub stage = (db, result)) {next : SubscriptionHandler}
    {merges : List (ℤ × QuotaSnapshot)} (hmerges : ∀ m ∈ s.merges, m ∈ merges)
    (hnext : next.Sure uid db merges) : Orderly uid ⟨db, next, s.sweep, merges⟩ where
  serial := .inr hidle
  user := quotaStep_user hresult hs.user
  rows := by
    rw [quotaStep_userSubscriptions hresult]
    exact hs.rows
  merged row hrow huid hmerged := by
    rw [quotaStep_userSubscriptions hresult] at hrow
    exact .inl (hmerges _ (hs.merged_of_ne hne hrow huid hmerged))
  handler := hnext
  sweep := ExpirySweep.sure_of_isIdle hidle uid db

theorem Orderly.quotaStep_done (hs : Orderly uid s) (hok : env.ok = true) {change : QuotaChange}
    {sub : UserSubscription} {stage : QuotaStage} (hfresh : stage.Fresh s.db sub) {db : Db}
    {done : Bool} (hresult : quotaStep .exact env s.db change sub stage = (db, .inr done))
    (huid : sub.userId = uid) : done = true := by
  have huser : (s.db.users.find sub.userId).isSome = true := huid ▸ hs.user
  exact Controller.quotaStep_done (hfresh.succeeds hok huser) hresult

theorem Orderly.handlerStep (hs : Orderly uid s) (hok : env.ok = true)
    (hplan : ∀ plan ∈ env.plan, plan.snapshot.NonNeg)
    (hstep : handlerStep .exact chrono env s = some t) : Orderly uid t := by
  have hidle := hs.sweep_isIdle hstep
  have hsure := hs.handler
  unfold Controller.handlerStep at hstep
  cases hpos : s.handler with
  | idle reply =>
      rw [hpos] at hstep
      cases hstep
  | findUser req =>
      have hne : ∀ row stage, s.handler ≠ .mergeCreated row stage := by simp [hpos]
      rw [hpos] at hstep
      simp only at hstep
      split_ifs at hstep <;> cases hstep <;> exact hs.advance hidle hne trivial
  | findSubscription req =>
      have hne : ∀ row stage, s.handler ≠ .mergeCreated row stage := by simp [hpos]
      rw [hpos] at hstep
      simp only [hok, not_true_eq_false, if_false] at hstep
      split at hstep <;> cases hstep
      · rename_i plan hsome
        exact hs.advance hidle hne (hplan plan hsome)
      · exact hs.advance hidle hne trivial
  | insert req plan =>
      have hne : ∀ row stage, s.handler ≠ .mergeCreated row stage := by simp [hpos]
      rw [hpos] at hstep hsure
      simp only [hok, not_true_eq_false, if_false] at hstep
      split_ifs at hstep with hfresh
      cases hstep
      refine ⟨.inr hidle, hs.user, ?_, ?_, ⟨?_, trivial⟩, ExpirySweep.sure_of_isIdle hidle uid _⟩
      · intro row hrow huid
        rcases List.mem_append.mp hrow with hrow | hrow
        · exact hs.rows row hrow huid
        · rw [List.mem_singleton.mp hrow]
          exact hsure
      · intro row hrow huid hmerged
        rcases List.mem_append.mp hrow with hrow | hrow
        · exact .inl (hs.merged_of_ne hne hrow huid hmerged)
        · rw [List.mem_singleton.mp hrow]
          exact .inr ⟨.findUser, rfl⟩
      · exact (Table.find_insert _ _ hfresh _).trans (if_pos rfl)
  | mergeCreated sub stage =>
      rw [hpos] at hstep hsure
      obtain ⟨hstored, hfresh⟩ := hsure
      simp only at hstep
      rcases hresult : quotaStep .exact env s.db .merge sub stage with ⟨db, next | done⟩ <;>
        rw [hresult] at hstep <;> cases hstep
      · refine ⟨.inr hidle, quotaStep_user hresult hs.user, ?_, ?_,
          ⟨hstored.of_quotaStep hresult, quotaStep_fresh hresult⟩,
          ExpirySweep.sure_of_isIdle hidle uid db⟩
        · rw [quotaStep_userSubscriptions hresult]
          exact hs.rows
        · intro row hrow huid hmerged
          rw [quotaStep_userSubscriptions hresult] at hrow
          rcases hs.merged row hrow huid hmerged with h | ⟨stage', h⟩
          · exact .inl (List.mem_append_left _ h)
          · rw [hpos] at h
            cases h
            exact .inr ⟨next, rfl⟩
      · refine ⟨.inr hidle, quotaStep_user hresult hs.user, ?_, ?_, trivial,
          ExpirySweep.sure_of_isIdle hidle uid db⟩
        · rw [quotaStep_userSubscriptions hresult]
          exact hs.rows
        · intro row hrow huid hmerged
          rw [quotaStep_userSubscriptions hresult] at hrow
          rcases hs.merged row hrow huid hmerged with h | ⟨stage', h⟩
          · exact .inl (List.mem_append_left _ h)
          · rw [hpos] at h
            cases h
            have hdone := hs.quotaStep_done hok hfresh hresult huid
            subst hdone huid
            exact .inl (List.mem_append_right _ (List.mem_singleton_self _))
  | findToUpdate id req =>
      have hne : ∀ row stage, s.handler ≠ .mergeCreated row stage := by simp [hpos]
      rw [hpos] at hstep
      simp only [hok, not_true_eq_false, if_false] at hstep
      split at hstep <;> cases hstep
      · rename_i sub hsub
        exact hs.advance hidle hne (updateFound_sure (UserSubscription.stored_of_find hsub) req)
      · exact hs.advance hidle hne trivial
  | adjust sub req change stage =>
      have hne : ∀ row stage, s.handler ≠ .mergeCreated row stage := by simp [hpos]
      rw [hpos] at hstep hsure
      obtain ⟨hstored, hfresh⟩ := hsure
      simp only at hstep
      rcases hresult : quotaStep .exact env s.db change sub stage with ⟨db, next | done⟩ <;>
        rw [hresult] at hstep <;> cases hstep
      · exact hs.change hidle hne hresult (fun m hm ↦ List.mem_append_left _ hm)
          ⟨hstored.of_quotaStep hresult, quotaStep_fresh hresult⟩
      · refine hs.change hidle hne hresult (fun m hm ↦ List.mem_append_left _ hm)
          ⟨hstored.of_quotaStep hresult, fun huid ↦ ?_⟩
        have hdone := hs.quotaStep_done hok hfresh hresult huid
        refine ⟨hdone, fun hmerge ↦ List.mem_append_right _ ?_⟩
        simp [quotaMerges, hdone, hmerge, huid]
  | updateRow sub req changed =>
      have hne : ∀ row stage, s.handler ≠ .mergeCreated row stage := by simp [hpos]
      rw [hpos] at hstep hsure
      have hstored : sub.Stored s.db := by
        cases changed <;> exact hsure.1
      have hrow : s.db.userSubscriptions.find sub.id = some sub := hstored
      simp only [hok, hrow, if_true] at hstep
      cases hstep
      refine ⟨.inr hidle, hs.user, ?_, ?_, trivial, ExpirySweep.sure_of_isIdle hidle uid _⟩
      · intro row hrow huid
        obtain ⟨old, hold, rfl⟩ := List.mem_map.mp hrow
        split_ifs at huid ⊢ <;> exact hs.rows old hold huid
      · intro row hrow huid hmerged
        obtain ⟨old, hold, rfl⟩ := List.mem_map.mp hrow
        split_ifs at huid hmerged ⊢ with hkey
        · have heq : old = sub := by
            have hfind := Table.mem_iff_find.mp hold
            rw [hkey] at hfind
            exact Option.some.inj (hfind.symm.trans hstored)
          subst heq
          have huid : old.userId = uid := huid
          rcases Bool.or_eq_true_iff.mp hmerged with hmerged | hmerge
          · have hmem : (uid, old.snapshot) ∈ s.merges := hs.merged_of_ne hne hold huid hmerged
            exact .inl hmem
          · rcases changed with - | ⟨change, done⟩
            · cases hmerge
            · have hmerge : change = .merge := by simpa using hmerge
              exact .inl ((hsure.2 huid).2 hmerge)
        · exact .inl (hs.merged_of_ne hne hold huid hmerged)
  | findToDelete id =>
      have hne : ∀ row stage, s.handler ≠ .mergeCreated row stage := by simp [hpos]
      rw [hpos] at hstep
      simp only [hok, not_true_eq_false, if_false] at hstep
      split at hstep <;> cases hstep
      · rename_i sub hsub
        have hstored := UserSubscription.stored_of_find hsub
        split_ifs with hcounts
        · exact hs.advance hidle hne ⟨hstored, trivial⟩
        · exact hs.advance hidle hne ⟨hstored, by simpa [UserSubscription.counts] using hcounts⟩
      · exact hs.advance hidle hne trivial
  | rollbackDeleted sub stage =>
      have hne : ∀ row stage, s.handler ≠ .mergeCreated row stage := by simp [hpos]
      rw [hpos] at hstep hsure
      obtain ⟨hstored, hfresh⟩ := hsure
      simp only at hstep
      rcases hresult : quotaStep .exact env s.db .rollback sub stage with ⟨db, next | done⟩ <;>
        rw [hresult] at hstep <;> cases hstep
      · exact hs.change hidle hne hresult (fun m hm ↦ hm)
          ⟨hstored.of_quotaStep hresult, quotaStep_fresh hresult⟩
      · exact hs.change hidle hne hresult (fun m hm ↦ hm)
          ⟨hstored.of_quotaStep hresult, fun huid ↦ hs.quotaStep_done hok hfresh hresult huid⟩
  | deleteRow sub changed =>
      have hne : ∀ row stage, s.handler ≠ .mergeCreated row stage := by simp [hpos]
      rw [hpos] at hstep
      simp only [hok, if_true] at hstep
      cases hstep
      refine ⟨.inr hidle, hs.user, ?_, ?_, trivial, ExpirySweep.sure_of_isIdle hidle uid _⟩
      · intro row hrow huid
        exact hs.rows row (List.mem_filter.mp hrow).1 huid
      · intro row hrow huid hmerged
        exact .inl (hs.merged_of_ne hne (List.mem_filter.mp hrow).1 huid hmerged)

theorem Orderly.handler_isIdle (hs : Orderly uid s) (hstep : sweepStep .exact env s = some t) :
    s.handler.isIdle = true := by
  rcases hs.serial with hidle | hidle
  · exact hidle
  · cases hpos : s.sweep with
    | idle =>
        simp only [sweepStep, hpos] at hstep
        cases hstep
    | _ =>
        rw [hpos] at hidle
        cases hidle

theorem SubscriptionHandler.exists_of_isIdle {handler : SubscriptionHandler}
    (h : handler.isIdle = true) : ∃ reply, handler = .idle reply := by
  cases handler with
  | idle reply => exact ⟨reply, rfl⟩
  | _ => cases h

/-- A step of the sweep that changes no subscription. -/
theorem Orderly.advance_sweep (hs : Orderly uid s) (hidle : s.handler.isIdle = true) {db : Db}
    (hsame : db.userSubscriptions = s.db.userSubscriptions)
    (huser : (db.users.find uid).isSome = true) {next : ExpirySweep} (hnext : next.Sure uid db) :
    Orderly uid { s with db, sweep := next } := by
  obtain ⟨reply, hpos⟩ := SubscriptionHandler.exists_of_isIdle hidle
  refine ⟨.inl hidle, huser, ?_, ?_, ?_, hnext⟩
  · rw [hsame]
    exact hs.rows
  · rw [hsame]
    exact hs.merged
  · simp only [hpos]
    trivial

theorem AllStored.of_eq {db db' : Db} {subs : List UserSubscription} (h : AllStored db subs)
    (hsame : db'.userSubscriptions = db.userSubscriptions) : AllStored db' subs := by
  refine ⟨fun sub hsub ↦ ?_, h.2⟩
  unfold UserSubscription.Stored
  rw [hsame]
  exact h.1 sub hsub

theorem AllStored.tail {db : Db} {sub : UserSubscription} {rest : List UserSubscription}
    (h : AllStored db (sub :: rest)) : AllStored db rest :=
  ⟨fun other hother ↦ h.1 other (List.mem_cons_of_mem _ hother), (List.nodup_cons.mp h.2).2⟩

theorem Orderly.sweepStep (hs : Orderly uid s) (hok : env.ok = true)
    (hstep : sweepStep .exact env s = some t) : Orderly uid t := by
  have hidle := hs.handler_isIdle hstep
  have hsure := hs.sweep
  unfold Controller.sweepStep at hstep
  cases hpos : s.sweep with
  | idle =>
      rw [hpos] at hstep
      cases hstep
  | find now =>
      rw [hpos] at hstep
      simp only [hok, if_true] at hstep
      cases hstep
      refine hs.advance_sweep hidle rfl hs.user ⟨fun sub hsub ↦ ?_, ?_⟩
      · exact Table.mem_iff_find.mp (List.mem_filter.mp hsub).1
      · exact s.db.userSubscriptions.nodup.sublist (List.filter_sublist.map _)
  | next subs now =>
      rw [hpos] at hstep hsure
      cases subs with
      | nil =>
          cases hstep
          exact hs.advance_sweep hidle rfl hs.user trivial
      | cons sub rest =>
          cases hstep
          apply hs.advance_sweep hidle rfl hs.user
          split_ifs with hmerged
          · exact ⟨hsure, trivial⟩
          · refine ⟨hsure, ?_⟩
            simp [UserSubscription.counts, hmerged]
  | rollback sub rest now stage =>
      rw [hpos] at hstep hsure
      obtain ⟨hstored, hfresh⟩ := hsure
      simp only at hstep
      rcases hresult : quotaStep .exact env s.db .rollback sub stage with ⟨db, next | done⟩
      · rw [hresult] at hstep
        cases hstep
        have hsame := quotaStep_userSubscriptions hresult
        exact hs.advance_sweep hidle hsame (quotaStep_user hresult hs.user)
          ⟨hstored.of_eq hsame, quotaStep_fresh hresult⟩
      · rw [hresult] at hstep
        cases hstep
        have hsame := quotaStep_userSubscriptions hresult
        apply hs.advance_sweep hidle hsame (quotaStep_user hresult hs.user)
        cases done with
        | false => exact hstored.tail.of_eq hsame
        | true => exact ⟨hstored.of_eq hsame, fun _ ↦ rfl⟩
  | deactivate sub rest now changed =>
      rw [hpos] at hstep hsure
      have hstored : AllStored s.db (sub :: rest) := by
        cases changed <;> exact hsure.1
      simp only [hok, if_true] at hstep
      cases hstep
      obtain ⟨reply, hpos⟩ := SubscriptionHandler.exists_of_isIdle hidle
      refine ⟨.inl hidle, hs.user, ?_, ?_, ?_, ⟨fun other hother ↦ ?_, hstored.tail.2⟩⟩
      · intro row hrow huid
        obtain ⟨old, hold, rfl⟩ := List.mem_map.mp hrow
        split_ifs at huid ⊢ <;> exact hs.rows old hold huid
      · intro row hrow huid hmerged
        obtain ⟨old, hold, rfl⟩ := List.mem_map.mp hrow
        split_ifs at huid hmerged ⊢ with hkey
        · have hmem : (uid, old.snapshot) ∈ s.merges ∨ _ := hs.merged old hold huid hmerged
          rw [hpos] at hmem
          rcases hmem with hmem | ⟨stage, hmem⟩
          · exact .inl hmem
          · cases hmem
        · exact hs.merged old hold huid hmerged
      · simp only [hpos]
        trivial
      · have hne : other.id ≠ sub.id := by
          intro heq
          exact (List.nodup_cons.mp hstored.2).1 (List.mem_map.mpr ⟨other, hother, heq⟩)
        exact (Table.find_modify _ _ _ (UserSubscription.key_deactivate now) _).trans
          ((if_neg hne).trans (hstored.tail.1 other hother))

theorem Orderly.step {input : SubscriptionInput} (hs : Orderly uid s) (hok : Successful s input)
    (hstep : subscriptionStep .exact chrono s input = some t) : Orderly uid t := by
  have hrequest : ∀ auth next, next.Sure uid s.db s.merges → s.sweep.isIdle = true →
      (∀ row stage, s.handler ≠ .mergeCreated row stage) →
      some { s with handler := requireAdmin auth next } = some t → Orderly uid t := by
    rintro auth next hnext hidle hne ⟨⟩
    apply hs.advance hidle hne
    cases auth with
    | none => trivial
    | some user =>
        simp only [requireAdmin]
        split_ifs
        · exact hnext
        · trivial
  cases input with
  | create auth req =>
      simp only [subscriptionStep] at hstep
      split at hstep
      · rename_i hpos
        exact hrequest auth (.findUser req) trivial hok (by simp [hpos]) hstep
      · cases hstep
  | update auth id req =>
      simp only [subscriptionStep] at hstep
      split at hstep
      · rename_i hpos
        exact hrequest auth (.findToUpdate id req) trivial hok (by simp [hpos]) hstep
      · cases hstep
  | delete auth id =>
      simp only [subscriptionStep] at hstep
      split at hstep
      · rename_i hpos
        exact hrequest auth (.findToDelete id) trivial hok (by simp [hpos]) hstep
      · cases hstep
  | handler env => exact hs.handlerStep hok.1 hok.2 hstep
  | expire now =>
      simp only [subscriptionStep] at hstep
      split at hstep
      · cases hstep
        exact hs.advance_sweep hok rfl hs.user trivial
      · cases hstep
  | sweep env => exact hs.sweepStep hok hstep

end Steps

/-! ## Orderly operations keep the books -/

section Keeps

variable {env : SubscriptionEnv} {uid : ℤ} {f : QuotaField} {base : ℚ} {s : SubscriptionState}

theorem UserSubscription.counted_nonneg {sub : UserSubscription}
    (h : sub.userId = uid → sub.snapshot.NonNeg) : 0 ≤ sub.counted uid f := by
  unfold counted share
  split_ifs with hcounts huid
  · cases hq : sub.snapshot.quota f with
    | none => exact le_rfl
    | some x => exact h huid f x hq
  all_goals exact le_rfl

/-- Limits are whole numbers, and so are their sums and differences. -/
theorem Numbers.fits_exact (change : QuotaChange) (u : User) {q : QuotaSnapshot} {x : ℚ}
    (hx : x ∈ q.quota f) : Numbers.exact.Fits f change ((u.quota f).getD 0) x := by
  have hwhole : ∀ (limit share : Option ℤ), x ∈ share.map (Int.cast : ℤ → ℚ) →
      ((⌊(limit.map Int.cast).getD 0 + change.signed x⌋ : ℤ) : ℚ) =
        (limit.map Int.cast).getD 0 + change.signed x := by
    intro limit share hshare
    obtain ⟨n, -, rfl⟩ := Option.map_eq_some_iff.mp hshare
    have hlimit : (limit.map (Int.cast : ℤ → ℚ)).getD 0 = (limit.getD 0 : ℤ) := by
      cases limit <;> simp
    rw [hlimit]
    cases change with
    | merge => rw [QuotaChange.signed, ← Int.cast_add, Int.floor_intCast]
    | rollback =>
        rw [QuotaChange.signed, ← sub_eq_add_neg, ← Int.cast_sub, Int.floor_intCast]
  cases f with
  | traffic => rfl
  | ports => exact hwhole u.maxPortCount q.maxPortCount hx
  | nodes => exact hwhole u.maxNodeCount q.maxNodeCount hx
  | clients => exact hwhole u.maxClientCount q.maxClientCount hx

/-- A rollback is not cut off: the quota holds the share it takes away. -/
theorem Orderly.exact (hs : Orderly uid s) (hbase : 0 ≤ base) {change : QuotaChange}
    {sub : UserSubscription} {stage : QuotaStage} (hfresh : stage.Fresh s.db sub)
    (hrollback : change = .rollback → sub.Stored s.db ∧ sub.counts = true ∧
      s.db.quota uid f = base + s.db.counted uid f) :
    stage.Exact .exact uid f env s.db change sub := by
  cases stage with
  | findUser => trivial
  | updateUser read =>
      intro huid hok x hx u hu
      have hid : read.id = sub.userId := Table.key_of_find hfresh
      have hread : s.db.users.find sub.userId = some read := hfresh
      rw [hid, hread] at hu
      cases hu
      refine ⟨rfl, Numbers.fits_exact change read hx, fun hchange ↦ ?_⟩
      obtain ⟨hstored, hcounts, hbalance⟩ := hrollback hchange
      have hquota : s.db.quota uid f = (read.quota f).getD 0 := by
        rw [Db.quota, ← huid, hread]
        rfl
      have hmem : sub ∈ s.db.userSubscriptions.rows := (Table.find_eq_some.mp hstored).1
      have hle : sub.counted uid f ≤ s.db.counted uid f :=
        Table.le_sumOver (·.counted uid f)
          (fun row hrow ↦ UserSubscription.counted_nonneg (hs.rows row hrow)) hmem
      have hshare : sub.counted uid f = x := by
        rw [UserSubscription.counted, if_pos hcounts, UserSubscription.share, if_pos huid, hx]
        rfl
      calc x = sub.counted uid f := hshare.symm
        _ ≤ base + s.db.counted uid f := by linarith
        _ = (read.quota f).getD 0 := hbalance.symm.trans hquota

/-- The write to a subscription that is stored as it was read. -/
theorem UserSubscription.Stored.follows {sub : UserSubscription} (hstored : sub.Stored s.db)
    (hok : env.ok = true) {countsAfter : UserSubscription → Bool}
    {changed : Option (QuotaChange × Bool)} (hnone : changed = none → countsAfter sub = sub.counts)
    (hdone : ∀ c ∈ changed, sub.userId = uid → c.2 = true) :
    sub.Follows uid f (sub.target env s.db) countsAfter changed := by
  have htarget : sub.target env s.db = some sub := by
    rw [target, if_pos hok]
    exact hstored
  rw [htarget]
  rcases changed with - | ⟨change, - | -⟩
  · rintro r ⟨⟩ -
    exact hnone rfl
  · rintro r ⟨⟩ hshare
    have huid : sub.userId = uid := by
      by_contra hne
      exact hshare (if_neg hne)
    cases hdone _ rfl huid
  · refine ⟨rfl, ?_⟩
    rintro r ⟨⟩ -
    rfl

theorem Orderly.keepsBooks (hs : Orderly uid s) (hbase : 0 ≤ base)
    (hhandler : s.handler.Planned) (hsweep : s.sweep.Planned) (hbalanced : Balanced uid f base s)
    {input : SubscriptionInput} (hok : Successful s input) : KeepsBooks .exact uid f s input := by
  have hsure := hs.handler
  have hsure' := hs.sweep
  unfold Balanced at hbalanced
  cases input with
  | handler env =>
      obtain ⟨hok, -⟩ := hok
      unfold KeepsBooks
      have hbalance : s.handler.isIdle = false → s.handler.held uid f = 0 →
          s.db.quota uid f = base + s.db.counted uid f := by
        intro hbusy hheld
        have hidle : s.sweep.isIdle = true := by simpa [hbusy] using hs.serial
        have hnone : s.sweep.held uid f = 0 := by
          cases hpos : s.sweep with
          | deactivate sub rest now changed =>
              rw [hpos] at hidle
              cases hidle
          | _ => rfl
        rw [hbalanced, hheld, hnone, add_zero, add_zero]
      cases hpos : s.handler with
      | mergeCreated sub stage =>
          rw [hpos] at hsure
          refine ⟨hs.exact hbase hsure.2 nofun, fun hshare ↦ hsure.2.succeeds hok ?_⟩
          have huid : sub.userId = uid := by
            by_contra hne
            exact hshare (if_neg hne)
          rw [huid]
          exact hs.user
      | adjust sub req change stage =>
          rw [hpos] at hsure hhandler hbalance
          refine hs.exact hbase hsure.2 fun hchange ↦ ?_
          subst hchange
          exact ⟨hsure.1, hhandler.1.1, hbalance rfl rfl⟩
      | updateRow sub req changed =>
          rw [hpos] at hsure
          change sub.Follows uid f (sub.target env s.db) (UserSubscription.countsAfter req changed)
            changed
          rcases changed with - | ⟨change, done⟩
          · exact hsure.1.follows hok (fun _ ↦ hsure.2) nofun
          · refine hsure.1.follows hok nofun ?_
            rintro c ⟨⟩ huid
            exact (hsure.2 huid).1
      | rollbackDeleted sub stage =>
          rw [hpos] at hsure hhandler hbalance
          exact hs.exact hbase hsure.2 fun _ ↦ ⟨hsure.1, hhandler.1, hbalance rfl rfl⟩
      | deleteRow sub changed =>
          rw [hpos] at hsure
          change sub.Follows uid f (sub.target env s.db) (fun _ ↦ false) changed
          rcases changed with - | ⟨change, done⟩
          · exact hsure.1.follows hok (fun _ ↦ hsure.2.symm) nofun
          · refine hsure.1.follows hok nofun ?_
            rintro c ⟨⟩ huid
            exact hsure.2 huid
      | _ => trivial
  | sweep env =>
      unfold KeepsBooks
      cases hpos : s.sweep with
      | rollback sub rest now stage =>
          rw [hpos] at hsure' hsweep hbalanced
          have hidle : s.handler.isIdle = true := by simpa [hpos, ExpirySweep.isIdle] using hs.serial
          obtain ⟨reply, hreply⟩ := SubscriptionHandler.exists_of_isIdle hidle
          rw [hreply] at hbalanced
          have hbalance : s.db.quota uid f = base + s.db.counted uid f := by
            simpa only [SubscriptionHandler.held, ExpirySweep.held, add_zero] using hbalanced
          have hstored : sub.Stored s.db := hsure'.1.1 sub List.mem_cons_self
          exact hs.exact hbase hsure'.2 fun _ ↦ ⟨hstored, hsweep.1, hbalance⟩
      | deactivate sub rest now changed =>
          rw [hpos] at hsure'
          change sub.Follows uid f (sub.target env s.db) (fun _ ↦ false) changed
          rcases changed with - | ⟨change, done⟩
          · have hstored : sub.Stored s.db := hsure'.1.1 sub List.mem_cons_self
            exact hstored.follows hok (fun _ ↦ hsure'.2.symm) nofun
          · have hstored : sub.Stored s.db := hsure'.1.1 sub List.mem_cons_self
            refine hstored.follows hok nofun ?_
            rintro c ⟨⟩ huid
            exact hsure'.2 huid
      | _ => trivial
  | _ => trivial

end Keeps

/-! ## Which quotas are present -/

section Present

variable {chrono : Chrono} {env : SubscriptionEnv} {uid : ℤ} {f : QuotaField}
  {quota : Option ℚ} {s t : SubscriptionState}

/-- A quota of the user is present when it was at first, or when a subscription
with a quota for it has been merged. -/
def Present (uid : ℤ) (f : QuotaField) (quota : Option ℚ) (db : Db)
    (merges : List (ℤ × QuotaSnapshot)) : Prop :=
  ∀ u ∈ db.users.find uid, (u.quota f).isSome = true ↔
    quota.isSome = true ∨ ∃ m ∈ merges, m.1 = uid ∧ (m.2.quota f).isSome = true

theorem Present.quotaStep {db db' : Db} {merges : List (ℤ × QuotaSnapshot)}
    (hpresent : Present uid f quota db merges) {change : QuotaChange} {sub : UserSubscription}
    {stage : QuotaStage} {result : QuotaStage ⊕ Bool} (hfresh : stage.Fresh db sub)
    (hresult : quotaStep .exact env db change sub stage = (db', result))
    (hmerged : change = .rollback → sub.userId = uid → (uid, sub.snapshot) ∈ merges) :
    Present uid f quota db' (merges ++ quotaMerges change sub result) := by
  cases stage with
  | findUser =>
      simp only [Controller.quotaStep] at hresult
      split at hresult <;> cases hresult <;> simpa [quotaMerges] using hpresent
  | updateUser read =>
      have hread : db.users.find sub.userId = some read := hfresh
      have hid : read.id = sub.userId := Table.key_of_find hfresh
      simp only [Controller.quotaStep] at hresult
      split_ifs at hresult with hok <;> cases hresult
      · intro u hu
        simp only [Table.find_modify, hid] at hu
        by_cases huid : uid = sub.userId
        · subst huid
          rw [if_pos rfl, hread] at hu
          cases hu
          have hbefore := hpresent read hread
          rw [QuotaChange.quota_apply]
          cases hq : sub.snapshot.quota f with
          | none =>
              simp only [hbefore]
              cases change <;> simp [quotaMerges, hq, or_and_right, exists_or]
          | some x =>
              simp only [Option.isSome_some, true_iff]
              right
              cases change with
              | merge =>
                  exact ⟨_, List.mem_append_right _ (List.mem_singleton_self _), rfl, by simp [hq]⟩
              | rollback =>
                  exact ⟨_, List.mem_append_left _ (hmerged rfl rfl), rfl, by simp [hq]⟩
        · rw [if_neg huid] at hu
          rw [hpresent u hu]
          cases change <;>
            simp [quotaMerges, or_and_right, exists_or, Ne.symm huid]
      · simpa [quotaMerges] using hpresent

/-- A step of a handler changes users and the merges by a change of quota only. -/
theorem handlerStep_users (hstep : handlerStep .exact chrono env s = some t) :
    (t.db.users = s.db.users ∧ t.merges = s.merges) ∨
      ∃ change sub stage result, quotaStep .exact env s.db change sub stage = (t.db, result) ∧
        t.merges = s.merges ++ quotaMerges change sub result ∧
          ((s.handler = .mergeCreated sub stage ∧ change = .merge) ∨
            (∃ req, s.handler = .adjust sub req change stage) ∨
              (s.handler = .rollbackDeleted sub stage ∧ change = .rollback)) := by
  unfold handlerStep at hstep
  cases hpos : s.handler with
  | mergeCreated sub stage =>
      rw [hpos] at hstep
      cases hstep
      exact .inr ⟨.merge, sub, stage, _, rfl, rfl, .inl ⟨rfl, rfl⟩⟩
  | adjust sub req change stage =>
      rw [hpos] at hstep
      cases hstep
      exact .inr ⟨change, sub, stage, _, rfl, rfl, .inr (.inl ⟨req, rfl⟩)⟩
  | rollbackDeleted sub stage =>
      rw [hpos] at hstep
      cases hstep
      refine .inr ⟨.rollback, sub, stage, (quotaStep .exact env s.db .rollback sub stage).2, rfl, ?_,
        .inr (.inr ⟨rfl, rfl⟩)⟩
      rcases (quotaStep .exact env s.db .rollback sub stage).2 with next | - | - <;>
        exact (List.append_nil _).symm
  | _ =>
      rw [hpos] at hstep
      try simp only at hstep
      try split_ifs at hstep
      all_goals try split at hstep
      all_goals cases hstep <;> exact .inl ⟨rfl, rfl⟩

theorem sweepStep_users (hstep : sweepStep .exact env s = some t) :
    t.merges = s.merges ∧ (t.db.users = s.db.users ∨
      ∃ sub rest now stage result, quotaStep .exact env s.db .rollback sub stage = (t.db, result) ∧
        s.sweep = .rollback sub rest now stage) := by
  unfold sweepStep at hstep
  cases hpos : s.sweep with
  | rollback sub rest now stage =>
      rw [hpos] at hstep
      cases hstep
      exact ⟨rfl, .inr ⟨sub, rest, now, stage, _, rfl, rfl⟩⟩
  | next subs now =>
      rw [hpos] at hstep
      cases subs <;> cases hstep <;> exact ⟨rfl, .inl rfl⟩
  | _ =>
      rw [hpos] at hstep
      try simp only at hstep
      try split_ifs at hstep
      all_goals cases hstep <;> exact ⟨rfl, .inl rfl⟩

theorem Present.congr {db db' : Db} {merges merges' : List (ℤ × QuotaSnapshot)}
    (hpresent : Present uid f quota db merges) (husers : db'.users = db.users)
    (hmerges : merges' = merges) : Present uid f quota db' merges' := by
  unfold Present
  rw [husers, hmerges]
  exact hpresent

theorem Orderly.merged_of_counts (hs : Orderly uid s)
    (hne : ∀ row stage, s.handler ≠ .mergeCreated row stage) {sub : UserSubscription}
    (hstored : sub.Stored s.db) (hcounts : sub.counts = true) (huid : sub.userId = uid) :
    (uid, sub.snapshot) ∈ s.merges := by
  have hmem : sub ∈ s.db.userSubscriptions.rows := (Table.find_eq_some.mp hstored).1
  exact hs.merged_of_ne hne hmem huid (Bool.and_eq_true_iff.mp hcounts).2

theorem Present.handlerStep (hpresent : Present uid f quota s.db s.merges) (hs : Orderly uid s)
    (hplanned : s.handler.Planned) (hstep : handlerStep .exact chrono env s = some t) :
    Present uid f quota t.db t.merges := by
  have hsure := hs.handler
  rcases handlerStep_users hstep with
    ⟨husers, hmerges⟩ | ⟨change, sub, stage, result, hresult, hmerges, hpos⟩
  · exact hpresent.congr husers hmerges
  · rw [hmerges]
    rcases hpos with ⟨hpos, rfl⟩ | ⟨req, hpos⟩ | ⟨hpos, rfl⟩
    · rw [hpos] at hsure
      exact hpresent.quotaStep hsure.2 hresult nofun
    · have hne : ∀ row stage, s.handler ≠ .mergeCreated row stage := by simp [hpos]
      rw [hpos] at hsure hplanned
      refine hpresent.quotaStep hsure.2 hresult fun hchange huid ↦ ?_
      subst hchange
      exact hs.merged_of_counts hne hsure.1 hplanned.1.1 huid
    · have hne : ∀ row stage, s.handler ≠ .mergeCreated row stage := by simp [hpos]
      rw [hpos] at hsure hplanned
      exact hpresent.quotaStep hsure.2 hresult fun _ huid ↦
        hs.merged_of_counts hne hsure.1 hplanned.1 huid

theorem Present.sweepStep (hpresent : Present uid f quota s.db s.merges) (hs : Orderly uid s)
    (hplanned : s.sweep.Planned) (hstep : sweepStep .exact env s = some t) :
    Present uid f quota t.db t.merges := by
  have hsure := hs.sweep
  obtain ⟨reply, hreply⟩ := SubscriptionHandler.exists_of_isIdle (hs.handler_isIdle hstep)
  have hne : ∀ row stage, s.handler ≠ .mergeCreated row stage := by simp [hreply]
  obtain ⟨hmerges, husers | ⟨sub, rest, now, stage, result, hresult, hpos⟩⟩ := sweepStep_users hstep
  · exact hpresent.congr husers hmerges
  · rw [hpos] at hsure hplanned
    have hstored : sub.Stored s.db := hsure.1.1 sub List.mem_cons_self
    have hafter := hpresent.quotaStep hsure.2 hresult fun _ huid ↦
      hs.merged_of_counts hne hstored hplanned.1 huid
    have hnone : quotaMerges .rollback sub result = [] := by
      rcases result with next | - | - <;> rfl
    rw [hnone, List.append_nil] at hafter
    exact hafter.congr rfl hmerges

theorem Present.step {input : SubscriptionInput} (hpresent : Present uid f quota s.db s.merges)
    (hs : Orderly uid s) (hhandler : s.handler.Planned) (hsweep : s.sweep.Planned)
    (hstep : subscriptionStep .exact chrono s input = some t) : Present uid f quota t.db t.merges := by
  cases input with
  | handler env => exact hpresent.handlerStep hs hhandler hstep
  | sweep env => exact hpresent.sweepStep hs hsweep hstep
  | _ =>
      simp only [subscriptionStep] at hstep
      split at hstep <;> cases hstep
      exact hpresent

end Present

/-! ## The accounts after a run -/

theorem Orderly.start {uid : ℤ} {db : Db} (huser : (db.users.find uid).isSome = true)
    (hnew : ∀ row ∈ db.userSubscriptions.rows, row.userId ≠ uid) : Orderly uid (.start db) where
  serial := .inl rfl
  user := huser
  rows row hrow huid := (hnew row hrow huid).elim
  merged row hrow huid := (hnew row hrow huid).elim
  handler := trivial
  sweep := trivial

theorem counted_of_new {uid : ℤ} {f : QuotaField} {db : Db}
    (hnew : ∀ row ∈ db.userSubscriptions.rows, row.userId ≠ uid) : db.counted uid f = 0 := by
  apply List.sum_eq_zero
  intro x hx
  obtain ⟨row, hrow, rfl⟩ := List.mem_map.mp hx
  simp [UserSubscription.counted, UserSubscription.share, hnew row hrow]

/-- Everything that is known of the user's quota along a run. -/
def Accounted (uid : ℤ) (f : QuotaField) (quota : Option ℚ) (s : SubscriptionState) : Prop :=
  Orderly uid s ∧ Present uid f quota s.db s.merges ∧ s.handler.Planned ∧ s.sweep.Planned ∧
    Balanced uid f (quota.getD 0) s

theorem Accounted.step {chrono : Chrono} {uid : ℤ} {f : QuotaField} {quota : Option ℚ}
    {s t : SubscriptionState} {input : SubscriptionInput} (hbase : 0 ≤ quota.getD 0)
    (hs : Accounted uid f quota s) (hok : Successful s input)
    (hstep : subscriptionStep .exact chrono s input = some t) : Accounted uid f quota t := by
  obtain ⟨horderly, hpresent, hhandler, hsweep, hbalanced⟩ := hs
  have hkeeps := horderly.keepsBooks hbase hhandler hsweep hbalanced hok
  exact ⟨horderly.step hok hstep, hpresent.step horderly hhandler hsweep hstep,
    Balanced.step ⟨hhandler, hsweep, hbalanced⟩ hkeeps hstep⟩

/-- After operations that succeed, one after another, each quota of a user that
was absent or not negative is what it was before any subscription plus the
shares of the subscriptions that count. -/
theorem quota_accounting (chrono : Chrono) (uid : ℤ) (f : QuotaField) (db : Db) (before : User)
    (inputs : List SubscriptionInput) (t : SubscriptionState)
    (hbefore : db.users.find uid = some before) (hbase : ∀ x ∈ before.quota f, 0 ≤ x)
    (hnew : ∀ row ∈ db.userSubscriptions.rows, row.userId ≠ uid)
    (hok : Within (subscriptionStep .exact chrono) Successful (.start db) inputs)
    (hrun : run (subscriptionStep .exact chrono) (.start db) inputs = some t) (ht : t.Quiescent) :
    ∃ u, t.db.users.find uid = some u ∧
      u.quota f =
        if before.quota f = none ∧ ∀ m ∈ t.merges, m.1 = uid → m.2.quota f = none then none
        else some ((before.quota f).getD 0 + t.db.counted uid f) := by
  have hzero : 0 ≤ (before.quota f).getD 0 := by
    cases hq : before.quota f with
    | none => exact le_rfl
    | some x => exact hbase x hq
  have horderly : Orderly uid (.start db) := .start (by rw [hbefore]; rfl) hnew
  have hbalanced : Balanced uid f ((before.quota f).getD 0) (.start db) := by
    have hquota : db.quota uid f = (before.quota f).getD 0 := by
      rw [Db.quota, hbefore]
      rfl
    simp [Balanced, SubscriptionState.start, SubscriptionHandler.held, ExpirySweep.held, hquota,
      counted_of_new hnew]
  have hpresent : Present uid f (before.quota f) db [] := by
    intro u hu
    rw [hbefore] at hu
    cases hu
    simp
  obtain ⟨horderly, hpresent, -, -, hbalanced⟩ := run_invariant
    (fun s input t hs hok hstep ↦ Accounted.step hzero hs hok hstep)
    ⟨horderly, hpresent, trivial, trivial, hbalanced⟩ hok hrun
  obtain ⟨u, hu⟩ := Option.isSome_iff_exists.mp horderly.user
  refine ⟨u, hu, ?_⟩
  have hquota : (u.quota f).getD 0 = (before.quota f).getD 0 + t.db.counted uid f := by
    obtain ⟨hhandler, hsweep⟩ := ht.held uid f
    unfold Balanced at hbalanced
    rw [hhandler, hsweep, add_zero, add_zero, Db.quota, hu] at hbalanced
    exact hbalanced
  have hiff := hpresent u hu
  split_ifs with habsent
  · rw [← Option.not_isSome_iff_eq_none, hiff]
    obtain ⟨hnone, hmerges⟩ := habsent
    rintro (hsome | ⟨m, hm, huid, hsome⟩)
    · rw [hnone] at hsome
      cases hsome
    · rw [hmerges m hm huid] at hsome
      cases hsome
  · have hsome : (u.quota f).isSome = true := by
      rw [hiff]
      by_contra hcontra
      apply habsent
      refine ⟨?_, fun m hm huid ↦ ?_⟩
      · rw [← Option.not_isSome_iff_eq_none]
        exact fun hsome ↦ hcontra (.inl hsome)
      · rw [← Option.not_isSome_iff_eq_none]
        exact fun hsome ↦ hcontra (.inr ⟨m, hm, huid, hsome⟩)
    obtain ⟨x, hx⟩ := Option.isSome_iff_exists.mp hsome
    rw [hx] at hquota ⊢
    exact congrArg some hquota

instance (q : QuotaSnapshot) : Decidable q.NonNeg :=
  inferInstanceAs (Decidable (∀ f, ∀ x ∈ q.quota f, 0 ≤ x))

instance (s : SubscriptionState) : (input : SubscriptionInput) → Decidable (Successful s input)
  | .create _ _ | .update _ _ _ | .delete _ _ =>
      inferInstanceAs (Decidable (s.sweep.isIdle = true))
  | .expire _ => inferInstanceAs (Decidable (s.handler.isIdle = true))
  | .handler env =>
      inferInstanceAs (Decidable (env.ok = true ∧ ∀ plan ∈ env.plan, plan.snapshot.NonNeg))
  | .sweep env => inferInstanceAs (Decidable (env.ok = true))

theorem quota_accounting_deactivated :
    ∃ t ∈ run (subscriptionStep .exact still) (.start (subscriberState (some 2)).db)
        (subscribeToThreePorts ++ deactivateSubscription true),
      ∃ u, t.db.users.find 1 = some u ∧
        u.quota .ports =
          if (subscriber 1 (some 2)).quota .ports = none ∧
              ∀ m ∈ t.merges, m.1 = 1 → m.2.quota .ports = none then none
          else some (((subscriber 1 (some 2)).quota .ports).getD 0 + t.db.counted 1 .ports) := by
  obtain ⟨t, ht, hquiescent⟩ : ∃ t ∈ run (subscriptionStep .exact still)
      (.start (subscriberState (some 2)).db) (subscribeToThreePorts ++ deactivateSubscription true),
      t.Quiescent := by decide +kernel
  exact ⟨t, ht, quota_accounting still 1 .ports _ (subscriber 1 (some 2)) _ t rfl (by decide)
    (fun _ hrow ↦ (List.not_mem_nil hrow).elim) (by decide +kernel) ht hquiescent⟩

/-- A base below zero: the rollback of three ports stops at zero. -/
theorem not_accounting_negative_base :
    Within (subscriptionStep .exact still) Successful (.start (subscriberState (some (-5))).db)
        (subscribeToThreePorts ++ deactivateSubscription true) ∧
      ∃ t ∈ run (subscriptionStep .exact still) (.start (subscriberState (some (-5))).db)
          (subscribeToThreePorts ++ deactivateSubscription true),
        t.Quiescent ∧ (subscriber 1 (some (-5))).quota .ports = some (-5) ∧
          t.db.counted 1 .ports = 0 ∧
            (t.db.users.find 1).map (·.quota .ports) = some (some 0) := by
  decide +kernel

end Oxiproxy.Controller
