import Oxiproxy.Common.Domain
import Oxiproxy.Controller.Entity
import Oxiproxy.Foundation.Runs

/-!
# The route conflict triggers

Two triggers guard the proxy table: before an insert, and before an update that
sets one of the columns of a route, they abort the statement when its new row is
enabled and conflicts with another enabled row of the same node and port.
-/

namespace Oxiproxy.Controller

open Transition

/-- The columns the update trigger watches. -/
def Proxy.routeColumns (p : Proxy) : Option ℤ × UInt16 × String × String × Bool :=
  (p.nodeId, p.remotePort, p.proxyType, p.domain, p.enabled)

/-- An `UPDATE`: the rows it matches and what it sets.  Without setting a column of
the route it leaves all of them alone. -/
structure ProxyUpdate where
  filter : Proxy → Bool
  set : Proxy → Proxy
  setsRoute : Bool
  routeColumns_set : setsRoute = false → ∀ p, (set p).routeColumns = p.routeColumns

inductive ProxyStatement
  /-- The row, and the value of `NEW.id` when the statement names no id. -/
  | insert (row : Proxy) (newId : Option ℤ)
  | update (u : ProxyUpdate)
  | delete (filter : Proxy → Bool)

def conflictMessage : String := "proxy port/domain conflict"

def uniqueMessage : String := "UNIQUE constraint failed: proxy.id"

/-- The condition of both triggers; `IS` treats two nulls as equal. -/
def routeTrigger (t : Table Proxy) (newId : ℤ) (new : Proxy) : Bool :=
  new.enabled && t.rows.any fun p ↦
    p.id != newId && p.enabled && p.nodeId == new.nodeId && p.remotePort == new.remotePort &&
      (!(new.proxyType == "http" || new.proxyType == "https") || p.proxyType != new.proxyType ||
        p.domain == new.domain)

/-- Rows are updated one by one, each after the trigger has looked at it.  The row
itself is still the old one then. -/
def updateRows (u : ProxyUpdate) : List ℤ → Table Proxy → Except String (Table Proxy)
  | [], t => .ok t
  | id :: ids, t =>
      match t.find id with
      | some row =>
          let new := u.set row
          if u.setsRoute && routeTrigger t new.id new then .error conflictMessage
          else if hid : key new = id ∨ key new ∉ t.rows.map key then
            updateRows u ids (t.replace id new hid)
          else .error uniqueMessage
      | none => updateRows u ids t

def ProxyUpdate.ids (u : ProxyUpdate) (t : Table Proxy) : List ℤ := (t.rows.filter u.filter).map key

def ProxyStatement.execute (t : Table Proxy) : ProxyStatement → Except String (Table Proxy)
  | .insert row newId =>
      if routeTrigger t (newId.getD row.id) row then .error conflictMessage
      else if hfresh : key row ∉ t.rows.map key then .ok (t.insert row hfresh)
      else .error uniqueMessage
  | .update u => updateRows u (u.ids t) t
  | .delete filter => .ok (((t.rows.filter filter).map key).foldl Table.erase t)

/-- The ids of the rows stay as they are. -/
def ProxyStatement.KeepsIds : ProxyStatement → Prop
  | .update u => ∀ p, key (u.set p) = key p
  | .insert _ _ | .delete _ => True

/-- A statement that fails changes nothing. -/
def ProxyStatement.step (t : Table Proxy) (statement : ProxyStatement) : Option (Table Proxy) :=
  match statement.execute t with
  | .ok t => some t
  | .error _ => some t

/-! ## The relation of the code -/

/-- The row conflicts with another enabled row of its node and port. -/
def Conflicts (t : Table Proxy) (id : ℤ) (new : Proxy) : Prop :=
  new.enabled = true ∧ ∃ p ∈ t.rows, p.id ≠ id ∧ p.enabled = true ∧ p.nodeId = new.nodeId ∧
    p.remotePort = new.remotePort ∧
      routesConflict new.proxyType new.domain p.proxyType p.domain = true

/-- The enabled proxies of one node and port do not conflict. -/
def RoutesDisjoint (t : Table Proxy) : Prop :=
  ∀ p ∈ t.rows, ∀ q ∈ t.rows, p.id ≠ q.id → p.enabled = true → q.enabled = true →
    p.nodeId = q.nodeId → p.remotePort = q.remotePort →
      routesConflict p.proxyType p.domain q.proxyType q.domain = false

theorem routesConflict_comm (kind domain otherKind otherDomain : String) :
    routesConflict kind domain otherKind otherDomain =
      routesConflict otherKind otherDomain kind domain := by
  unfold routesConflict
  by_cases hkind : kind = otherKind
  · subst hkind
    rw [Bool.beq_comm (a := domain)]
  · have hne : (kind != otherKind) = true := by simpa using hkind
    have hne' : (otherKind != kind) = true := by simpa using Ne.symm hkind
    rw [hne, hne']
    simp

theorem routeTrigger_iff (t : Table Proxy) (id : ℤ) (new : Proxy) :
    routeTrigger t id new = true ↔ Conflicts t id new := by
  have hkind (p : Proxy) : (p.proxyType != new.proxyType) = (new.proxyType != p.proxyType) :=
    bne_comm
  have hdomain (p : Proxy) : (p.domain == new.domain) = (new.domain == p.domain) := BEq.comm
  simp only [routeTrigger, Conflicts, routesConflict, Bool.and_eq_true, List.any_eq_true,
    bne_iff_ne, beq_iff_eq, hkind, hdomain, and_assoc]

/-! ## The table stays disjoint -/

section Table

variable {t t' : Table Proxy} {id : ℤ} {row new : Proxy}

theorem Conflicts.of_disjoint (ht : RoutesDisjoint t) (hrow : t.find id = some row)
    (hsame : new.routeColumns = row.routeColumns) : ¬ Conflicts t id new := by
  rintro ⟨henabled, p, hp, hne, hpenabled, hnode, hport, hconflict⟩
  obtain ⟨hmem, hid⟩ := Table.find_eq_some.mp hrow
  have hid : row.id = id := hid
  simp only [Proxy.routeColumns, Prod.mk.injEq] at hsame
  obtain ⟨hsnode, hsport, hskind, hsdomain, hsenabled⟩ := hsame
  have hfalse := ht row hmem p hp (by rw [hid]; exact hne.symm) (hsenabled ▸ henabled) hpenabled
    (hsnode.symm.trans hnode.symm) (hsport.symm.trans hport.symm)
  rw [hskind, hsdomain, hfalse] at hconflict
  cases hconflict

/-- A row that conflicts with no other one keeps the table disjoint. -/
theorem routesConflict_of_not_conflicts (hnot : ¬ Conflicts t id new) {q : Proxy} (hq : q ∈ t.rows)
    (hne : q.id ≠ id) (hnew : new.enabled = true) (henabled : q.enabled = true)
    (hnode : new.nodeId = q.nodeId) (hport : new.remotePort = q.remotePort) :
    routesConflict new.proxyType new.domain q.proxyType q.domain = false := by
  by_contra hconflict
  have hconflict := Bool.eq_true_of_not_eq_false hconflict
  exact hnot ⟨hnew, q, hq, hne, henabled, hnode.symm, hport.symm, hconflict⟩

/-- A new row in the place of an old one may have another id, as long as it is free. -/
theorem RoutesDisjoint.replace (ht : RoutesDisjoint t)
    (hid : key new = id ∨ key new ∉ t.rows.map key) (hnot : ¬ Conflicts t id new) :
    RoutesDisjoint (t.replace id new hid) := by
  intro p hp q hq hne hpe hqe hnode hport
  rcases Table.mem_replace hp with rfl | ⟨hpmem, hpid⟩ <;>
    rcases Table.mem_replace hq with rfl | ⟨hqmem, hqid⟩
  · exact (hne rfl).elim
  · exact routesConflict_of_not_conflicts hnot hqmem hqid hpe hqe hnode hport
  · rw [routesConflict_comm]
    exact routesConflict_of_not_conflicts hnot hpmem hpid hqe hpe hnode.symm hport.symm
  · exact ht p hpmem q hqmem hne hpe hqe hnode hport

theorem RoutesDisjoint.insert (ht : RoutesDisjoint t) (hfresh : key row ∉ t.rows.map key)
    (hid : id = row.id ∨ id ∉ t.rows.map key) (hnot : ¬ Conflicts t id row) :
    RoutesDisjoint (t.insert row hfresh) := by
  have hne_id : ∀ q ∈ t.rows, q.id ≠ id := by
    rintro q hq rfl
    rcases hid with hid | hid
    · exact hfresh (List.mem_map.mpr ⟨q, hq, hid⟩)
    · exact hid (List.mem_map_of_mem hq)
  intro p hp q hq hne hpe hqe hnode hport
  rcases List.mem_append.mp hp with hold | hnew <;>
    rcases List.mem_append.mp hq with hold' | hnew'
  · exact ht p hold q hold' hne hpe hqe hnode hport
  · rw [List.mem_singleton.mp hnew'] at hqe hnode hport ⊢
    rw [routesConflict_comm]
    exact routesConflict_of_not_conflicts hnot hold (hne_id p hold) hqe hpe hnode.symm hport.symm
  · rw [List.mem_singleton.mp hnew] at hpe hnode hport ⊢
    exact routesConflict_of_not_conflicts hnot hold' (hne_id q hold') hpe hqe hnode hport
  · rw [List.mem_singleton.mp hnew, List.mem_singleton.mp hnew'] at hne
    exact (hne rfl).elim

theorem RoutesDisjoint.erase (ht : RoutesDisjoint t) (id : ℤ) : RoutesDisjoint (t.erase id) :=
  fun p hp q hq ↦ ht p (List.mem_filter.mp hp).1 q (List.mem_filter.mp hq).1

/-- A row that is not stopped conflicts with none but its old self. -/
theorem not_conflicts_of_passed (ht : RoutesDisjoint t) (u : ProxyUpdate)
    (hrow : t.find id = some row) (hid : key (u.set row) = id ∨ key (u.set row) ∉ t.rows.map key)
    (hpassed : ¬ (u.setsRoute && routeTrigger t (u.set row).id (u.set row)) = true) :
    ¬ Conflicts t id (u.set row) := by
  cases hsets : u.setsRoute with
  | false => exact Conflicts.of_disjoint ht hrow (u.routeColumns_set hsets row)
  | true =>
      rw [hsets, Bool.true_and, routeTrigger_iff] at hpassed
      rintro ⟨henabled, p, hp, hne, hrest⟩
      have hother : p.id ≠ (u.set row).id := by
        rintro heq
        rcases hid with hid | hid
        · exact hne (heq.trans hid)
        · exact hid (List.mem_map.mpr ⟨p, hp, heq⟩)
      exact hpassed ⟨henabled, p, hp, hother, hrest⟩

/-- Whether or not the trigger runs, a row that keeps its id is stopped exactly when
it conflicts. -/
theorem stopped_iff (ht : RoutesDisjoint t) (u : ProxyUpdate) (hrow : t.find id = some row)
    (hid : key (u.set row) = id) :
    (u.setsRoute && routeTrigger t (u.set row).id (u.set row)) = true ↔
      Conflicts t id (u.set row) := by
  constructor
  · intro hstopped
    rw [Bool.and_eq_true, routeTrigger_iff] at hstopped
    have hsame : (u.set row).id = id := hid
    rw [hsame] at hstopped
    exact hstopped.2
  · intro hconflict
    by_contra hpassed
    exact not_conflicts_of_passed ht u hrow (.inl hid) hpassed hconflict

theorem RoutesDisjoint.updateRows (u : ProxyUpdate) (ids : List ℤ) (ht : RoutesDisjoint t)
    (hupdate : updateRows u ids t = .ok t') : RoutesDisjoint t' := by
  induction ids generalizing t with
  | nil =>
      cases hupdate
      exact ht
  | cons id ids ih =>
      simp only [Controller.updateRows] at hupdate
      cases hrow : t.find id with
      | none =>
          rw [hrow] at hupdate
          exact ih ht hupdate
      | some row =>
          rw [hrow] at hupdate
          simp only at hupdate
          split_ifs at hupdate with hpassed hid
          exact ih (ht.replace hid (not_conflicts_of_passed ht u hrow hid hpassed)) hupdate

theorem ProxyStatement.execute_disjoint (ht : RoutesDisjoint t) {statement : ProxyStatement}
    (hid : ∀ row newId, statement = .insert row (some newId) → newId ∉ t.rows.map key)
    (hexecute : statement.execute t = .ok t') : RoutesDisjoint t' := by
  cases statement with
  | insert row newId =>
      simp only [execute] at hexecute
      split_ifs at hexecute with hstopped hfresh
      cases hexecute
      apply ht.insert hfresh _ (mt (routeTrigger_iff t _ row).mpr hstopped)
      cases newId with
      | none => exact .inl rfl
      | some newId => exact .inr (hid row newId rfl)
  | update u => exact ht.updateRows u _ hexecute
  | delete filter =>
      cases hexecute
      induction (t.rows.filter filter).map key generalizing t with
      | nil => exact ht
      | cons id ids ih => exact ih (ht.erase id) (fun row newId h ↦ by cases h)

/-- The rows an update had written before it stopped, and the one it stopped at. -/
theorem updateRows_error_iff (ht : RoutesDisjoint t) (u : ProxyUpdate)
    (hkeeps : ∀ p, key (u.set p) = key p) (ids : List ℤ) :
    updateRows u ids t = .error conflictMessage ↔
      ∃ before id after t₁ row, ids = before ++ id :: after ∧ updateRows u before t = .ok t₁ ∧
        t₁.find id = some row ∧ Conflicts t₁ id (u.set row) := by
  induction ids generalizing t with
  | nil => simp [updateRows]
  | cons id ids ih =>
      -- the written prefix is empty, or the first row was written as well
      have hfront : ∀ t₂, (∀ rest, updateRows u (id :: rest) t = updateRows u rest t₂) →
          RoutesDisjoint t₂ → (∀ row, t.find id = some row → ¬ Conflicts t id (u.set row)) →
          (updateRows u (id :: ids) t = .error conflictMessage ↔
            ∃ before id' after t₁ row, id :: ids = before ++ id' :: after ∧
              updateRows u before t = .ok t₁ ∧ t₁.find id' = some row ∧
                Conflicts t₁ id' (u.set row)) := by
        intro t₂ hfirst ht₂ hnot
        rw [hfirst ids, ih ht₂]
        constructor
        · rintro ⟨before, id', after, t₁, row, rfl, hwritten, hfind, hconflict⟩
          exact ⟨id :: before, id', after, t₁, row, rfl, (hfirst before).trans hwritten, hfind,
            hconflict⟩
        · rintro ⟨before, id', after, t₁, row, hids, hwritten, hfind, hconflict⟩
          cases before with
          | nil =>
              cases hwritten
              obtain ⟨rfl, -⟩ := List.cons.inj hids
              exact (hnot row hfind hconflict).elim
          | cons head before =>
              obtain ⟨rfl, rfl⟩ := List.cons.inj hids
              exact ⟨before, id', after, t₁, row, rfl, (hfirst before).symm.trans hwritten, hfind,
                hconflict⟩
      cases hrow : t.find id with
      | none =>
          refine hfront t (fun rest ↦ ?_) ht (fun row h ↦ ?_)
          · simp [updateRows, hrow]
          · rw [hrow] at h
            cases h
      | some row =>
          have hid : key (u.set row) = id := (hkeeps row).trans (Table.key_of_find hrow)
          by_cases hstopped : (u.setsRoute && routeTrigger t (u.set row).id (u.set row)) = true
          · have hconflict := (stopped_iff ht u hrow hid).mp hstopped
            have herror : updateRows u (id :: ids) t = .error conflictMessage := by
              simp [updateRows, hrow, hstopped]
            exact iff_of_true herror ⟨[], id, ids, t, row, rfl, rfl, hrow, hconflict⟩
          · have hnot := mt (stopped_iff ht u hrow hid).mpr hstopped
            refine hfront (t.replace id (u.set row) (.inl hid)) (fun rest ↦ ?_)
              (ht.replace (.inl hid) hnot) (fun row' h ↦ ?_)
            · simp [updateRows, hrow, hstopped, hid]
            · obtain rfl := Option.some.inj (hrow.symm.trans h)
              exact hnot

/-- The new rows of a statement, each with the table at the time it is looked at. -/
def ProxyStatement.NewRow (t : Table Proxy) : ProxyStatement → Table Proxy → ℤ → Proxy → Prop
  | .insert row newId, t₁, id, new => t₁ = t ∧ id = newId.getD row.id ∧ new = row
  | .update u, t₁, id, new => ∃ before after row, u.ids t = before ++ id :: after ∧
      updateRows u before t = .ok t₁ ∧ t₁.find id = some row ∧ new = u.set row
  | .delete _, _, _, _ => False

theorem ProxyStatement.execute_aborts_iff (ht : RoutesDisjoint t) (statement : ProxyStatement)
    (hkeeps : statement.KeepsIds) :
    statement.execute t = .error conflictMessage ↔
      ∃ t₁ id new, statement.NewRow t t₁ id new ∧ Conflicts t₁ id new := by
  cases statement with
  | insert row newId =>
      have hnew : (∃ t₁ id new, ProxyStatement.NewRow t (.insert row newId) t₁ id new ∧
          Conflicts t₁ id new) ↔ Conflicts t (newId.getD row.id) row := by
        constructor
        · rintro ⟨t₁, id, new, ⟨rfl, rfl, rfl⟩, hconflict⟩
          exact hconflict
        · exact fun hconflict ↦ ⟨t, _, row, ⟨rfl, rfl, rfl⟩, hconflict⟩
      rw [hnew, ← routeTrigger_iff, execute]
      split_ifs with hstopped hfresh
      · exact iff_of_true rfl hstopped
      · have hmessage : uniqueMessage ≠ conflictMessage := by decide
        exact iff_of_false (by simpa using hmessage) hstopped
      · exact iff_of_false (by simp) hstopped
  | update u =>
      rw [execute, updateRows_error_iff ht u hkeeps]
      constructor
      · rintro ⟨before, id, after, t₁, row, hids, hwritten, hfind, hconflict⟩
        exact ⟨t₁, id, u.set row, ⟨before, after, row, hids, hwritten, hfind, rfl⟩, hconflict⟩
      · rintro ⟨t₁, id, new, ⟨before, after, row, hids, hwritten, hfind, rfl⟩, hconflict⟩
        exact ⟨before, id, after, t₁, row, hids, hwritten, hfind, hconflict⟩
  | delete filter =>
      refine iff_of_false (fun h ↦ by cases h) ?_
      rintro ⟨_, _, _, h, -⟩
      exact h

end Table

/-- An insert without an id sees a `NEW.id` that is not in use. -/
def FreshNewId (t : Table Proxy) : ProxyStatement → Prop
  | .insert _ (some newId) => newId ∉ t.rows.map key
  | _ => True

theorem RoutesDisjoint.step {t t' : Table Proxy} {statement : ProxyStatement}
    (ht : RoutesDisjoint t) (hid : FreshNewId t statement) (hstep : statement.step t = some t') :
    RoutesDisjoint t' := by
  unfold ProxyStatement.step at hstep
  split at hstep <;> cases hstep
  · rename_i hexecute
    refine ProxyStatement.execute_disjoint ht (fun row newId heq ↦ ?_) hexecute
    subst heq
    exact hid
  · exact ht

instance (t : Table Proxy) (statement : ProxyStatement) : Decidable (FreshNewId t statement) := by
  unfold FreshNewId
  split <;> infer_instance

/-- In every table that statements reach from a disjoint one, the enabled
proxies of a node and port do not conflict, and a statement that keeps the ids is
aborted exactly when one of its new rows conflicts with another enabled row. -/
theorem route_trigger_protects (t₀ t : Table Proxy) (statements : List ProxyStatement)
    (ht₀ : RoutesDisjoint t₀)
    (hids : Within (fun t statement ↦ statement.step t) FreshNewId t₀ statements)
    (hrun : run (fun t statement ↦ statement.step t) t₀ statements = some t) :
    RoutesDisjoint t ∧
      (∀ statement : ProxyStatement, statement.KeepsIds →
        (statement.execute t = .error conflictMessage ↔
          ∃ t₁ id new, statement.NewRow t t₁ id new ∧ Conflicts t₁ id new)) ∧
      ∀ kind domain otherKind otherDomain,
        routesConflict kind domain otherKind otherDomain =
          routesConflict otherKind otherDomain kind domain := by
  have ht : RoutesDisjoint t :=
    run_invariant (fun _ _ _ ht hid hstep ↦ ht.step hid hstep) ht₀ hids hrun
  exact ⟨ht, ProxyStatement.execute_aborts_iff ht, routesConflict_comm⟩

/-- An enabled HTTP proxy of node 1 on port 80. -/
def httpProxy (id : ℤ) (domain : String) : Proxy :=
  { (default : Proxy) with
    id, domain, proxyType := "http", nodeId := some 1, remotePort := 80, enabled := true }

/-- `UPDATE proxy SET id = new, enabled = 1 WHERE id = old` -/
def enableUnder (old new : ℤ) : ProxyUpdate where
  filter p := p.id == old
  set p := { p with id := new, enabled := true }
  setsRoute := true
  routeColumns_set h := by cases h

/-- A row moves to another id, and a second one of its domain is refused. -/
theorem route_trigger_protects_moved :
    ∃ t ∈ run (fun t statement ↦ ProxyStatement.step t statement) .empty
        [.insert { httpProxy 1 "a.test" with enabled := false } (some (-1)),
          .update (enableUnder 1 10), .insert (httpProxy 2 "a.test") (some (-1))],
      t.rows = [httpProxy 10 "a.test"] ∧ RoutesDisjoint t ∧
        (ProxyStatement.execute t (.insert (httpProxy 2 "a.test") (some (-1))) =
            .error conflictMessage ↔
          ∃ t₁ id new, ProxyStatement.NewRow t (.insert (httpProxy 2 "a.test") (some (-1))) t₁ id new ∧
            Conflicts t₁ id new) := by
  obtain ⟨t, ht, hrows⟩ : ∃ t ∈ run (fun t statement ↦ ProxyStatement.step t statement) .empty
      [.insert { httpProxy 1 "a.test" with enabled := false } (some (-1)),
        .update (enableUnder 1 10), .insert (httpProxy 2 "a.test") (some (-1))],
      t.rows = [httpProxy 10 "a.test"] := by decide +kernel
  have hfresh : Within (fun t statement ↦ ProxyStatement.step t statement) FreshNewId .empty
      [.insert { httpProxy 1 "a.test" with enabled := false } (some (-1)),
        .update (enableUnder 1 10), .insert (httpProxy 2 "a.test") (some (-1))] := by
    decide +kernel
  have hprotects := route_trigger_protects .empty t _ (fun p hp ↦ (List.not_mem_nil hp).elim) hfresh ht
  exact ⟨t, ht, hrows, hprotects.1, hprotects.2.1 _ trivial⟩

/-- An enabled row that gets another id and stays enabled is aborted: the trigger
takes the row as it was for another one. -/
theorem not_aborts_iff_newId :
    ¬ ∀ (t : Table Proxy) (statement : ProxyStatement), RoutesDisjoint t →
      (statement.execute t = .error conflictMessage ↔
        ∃ t₁ id new, statement.NewRow t t₁ id new ∧ Conflicts t₁ id new) := by
  intro h
  let t : Table Proxy := ⟨[httpProxy 1 "a.test"], List.nodup_singleton _⟩
  have ht : RoutesDisjoint t := by
    intro p hp q hq hne
    rw [List.mem_singleton.mp hp, List.mem_singleton.mp hq] at hne
    exact (hne rfl).elim
  have haborts : (ProxyStatement.update (enableUnder 1 10)).execute t = .error conflictMessage := rfl
  obtain ⟨t₁, id, new, ⟨before, after, row, hids, hwritten, hfind, rfl⟩, hconflict⟩ :=
    (h t _ ht).mp haborts
  -- the statement has one row to update, and there is no other one
  have hone : before = [] ∧ id = 1 := by
    have hsingle : [1] = before ++ id :: after := hids
    cases before with
    | nil => exact ⟨rfl, (List.cons.inj hsingle).1.symm⟩
    | cons head before => simp at hsingle
  obtain ⟨rfl, rfl⟩ := hone
  cases hwritten
  obtain ⟨-, p, hp, hne, -⟩ := hconflict
  rw [List.mem_singleton.mp hp] at hne
  exact hne rfl

end Oxiproxy.Controller
