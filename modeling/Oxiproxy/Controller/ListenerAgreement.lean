import Oxiproxy.Controller.ProxyOwnership
import Oxiproxy.Controller.ServedProxies

/-!
# Requests and the listeners of a node

Requests that are handled one after the other keep a node and the database in
agreement, if the handler stops what it removes: the deletion of a client does not,
nor that of a user for the proxies of clients.
-/

namespace Oxiproxy.Controller

open Deployment Transition

/-! ## Loops -/

section Loops

variable {parse : UrlParser} {env : HandlerEnv} {n id : ℤ} {clientId : String}
  {d d' : Deployment}

theorem find_deleteProxy {result : Except String Unit}
    (hdelete : d.deleteProxy env id = (d', result)) :
    (SentOk n d' → SentOk n d) ∧
      ∀ j q, d'.db.proxies.find j = some q → d.db.proxies.find j = some q := by
  rcases deleteProxy_cases hdelete with ⟨-, -, -, rfl⟩ | ⟨-, rfl⟩
  · exact ⟨fun h ↦ h, fun _ _ h ↦ h⟩
  · refine ⟨fun h ↦ h, fun j q hq ↦ ?_⟩
    have hfind : (d.db.proxies.filter fun p ↦ !(p.id == id)).find j = some q := hq
    rw [Table.find_filter, Option.filter_eq_some_iff] at hfind
    exact hfind.1

theorem served_eq_none_of_find {db db' : Db}
    (hfind : ∀ q, db'.proxies.find id = some q → db.proxies.find id = some q)
    (h : db.served n id = none) : db'.served n id = none := by
  rw [served_eq_none] at h ⊢
  exact fun p hp ↦ h p (hfind p hp)

/-- A proxy that is stopped and deleted, with the client id of its row and without
a refusal by the database if it is to be served. -/
theorem AgreesBut.stopAndDelete (h : AgreesBut parse n ∅ d)
    (hserved : ∀ p, d.db.served n id = some p →
      p.clientId.getD "" = clientId ∧ env.writes (.delete id) = none) :
    AgreesBut parse n ∅ ((d.stopProxy env clientId id).1.deleteProxy env id).1 := by
  have hsame : SameData d (d.stopProxy env clientId id).1 := stopProxy_sameData Prod.mk.eta.symm
  refine (h.stopProxy Prod.mk.eta.symm).deleteProxy ?_ Prod.mk.eta.symm fun hrefused _ ↦ ?_
  · cases hrow : d.db.served n id with
    | none =>
        have hstopped := h.stopped (Set.notMem_empty id) fun _ ↦ hrow
        exact hstopped.stopProxy h Prod.mk.eta.symm
    | some p =>
        refine h.stopped_of_stopProxy Prod.mk.eta.symm fun q hq hnode ↦ ?_
        obtain ⟨hp, -, -⟩ := served_eq_some.mp hrow
        obtain rfl := Option.some.inj (hp.symm.trans hq)
        exact (hserved p hrow).1
  · rw [hsame.db, Option.eq_none_iff_forall_ne_some]
    exact fun p hp ↦ hrefused (hserved p hp).2

theorem AgreesBut.deleteEach (h : AgreesBut parse n ∅ d) {ps : List Proxy}
    (hps : ∀ p ∈ ps, ∀ q, d.db.served n p.id = some q →
      q.clientId.getD "" = clientId ∧ env.writes (.delete p.id) = none) :
    AgreesBut parse n ∅ (deleteEach env clientId d ps) := by
  induction ps generalizing d with
  | nil => exact h
  | cons p ps ih =>
      refine ih (h.stopAndDelete (hps p List.mem_cons_self)) fun r hr q hq ↦ ?_
      refine hps r (List.mem_cons_of_mem p hr) q ?_
      obtain ⟨hfind, hrest⟩ := served_eq_some.mp hq
      have hstop : SameData d (d.stopProxy env clientId p.id).1 :=
        stopProxy_sameData Prod.mk.eta.symm
      rw [← hstop.db]
      exact served_eq_some.mpr ⟨(find_deleteProxy (n := n) Prod.mk.eta.symm).2 _ _ hfind, hrest⟩

theorem SentOk.of_deleteEach {ps : List Proxy} (h : SentOk n (deleteEach env clientId d ps)) :
    SentOk n d := by
  induction ps generalizing d with
  | nil => exact h
  | cons p ps ih =>
      have hdelete := (find_deleteProxy (n := n) Prod.mk.eta.symm).1 (ih h)
      exact hdelete.of_stopProxy Prod.mk.eta.symm

/-- Deletions bring nothing back. -/
theorem served_deleteEach {ps : List Proxy} (h : SentOk n d → d.db.served n id = none) :
    SentOk n (deleteEach env clientId d ps) →
      (deleteEach env clientId d ps).db.served n id = none := by
  induction ps generalizing d with
  | nil => exact h
  | cons p ps ih =>
      refine ih fun hsent ↦ ?_
      have hdelete : (d.stopProxy env clientId p.id).1.deleteProxy env p.id = (_, _) :=
        Prod.mk.eta.symm
      obtain ⟨hmono, hfind⟩ := find_deleteProxy (n := n) hdelete
      have hstop : SameData d (d.stopProxy env clientId p.id).1 :=
        stopProxy_sameData Prod.mk.eta.symm
      refine served_eq_none_of_find (hfind id) ?_
      rw [hstop.db]
      exact h ((hmono hsent).of_stopProxy Prod.mk.eta.symm)

theorem find_insertProxy {row p : Proxy} (hinsert : d.insertProxy env row = (d', .ok p)) :
    p = { row with id := env.newId d.written.length } ∧
      (∀ j, d'.db.proxies.find j = if j = p.id then some p else d.db.proxies.find j) ∧
      d'.written = d.written ++ [p] := by
  rcases insertProxy_cases hinsert with ⟨e, he, -⟩ | ⟨q, hq, hok, -, -, hfresh, rfl⟩
  · cases he
  · cases hok
    exact ⟨hq, fun j ↦ Table.find_insert d.db.proxies p hfresh j, rfl⟩

/-- If the database refuses a row, it refuses no deletion of those that have been
inserted before it. -/
def RollsBack (env : HandlerEnv) : Deployment → List ℤ → List Proxy → Prop
  | _, _, [] => True
  | d, created, row :: rows =>
      match d.insertProxy env row with
      | (_, .error _) => ∀ id ∈ created, env.writes (.delete id) = none
      | (d, .ok proxy) => RollsBack env d (created ++ [proxy.id]) rows

theorem rollsBack_of_deletes (h : ∀ id, env.writes (.delete id) = none) {created : List ℤ}
    {rows : List Proxy} : RollsBack env d created rows := by
  induction rows generalizing d created with
  | nil => trivial
  | cons row rows ih =>
      rw [RollsBack]
      split
      · exact fun id _ ↦ h id
      · exact ih

theorem insertProxy_congr (hsame : SameData d d') (row : Proxy) :
    SameData (d.insertProxy env row).1 (d'.insertProxy env row).1 ∧
      (d'.insertProxy env row).2 = (d.insertProxy env row).2 := by
  obtain ⟨db, userNodes, nodes, commands, written⟩ := d
  obtain ⟨db', userNodes', nodes', commands', written'⟩ := d'
  obtain ⟨rfl, rfl, rfl⟩ := hsame
  simp only [insertProxy]
  split
  · exact ⟨⟨rfl, rfl, rfl⟩, rfl⟩
  · split <;> exact ⟨⟨rfl, rfl, rfl⟩, rfl⟩

theorem RollsBack.congr (hsame : SameData d d') {created : List ℤ} {rows : List Proxy}
    (h : RollsBack env d created rows) : RollsBack env d' created rows := by
  induction rows generalizing d d' created with
  | nil => trivial
  | cons row rows ih =>
      obtain ⟨hdata, hresult⟩ := @insertProxy_congr env d d' hsame row
      rw [RollsBack] at h ⊢
      cases hinsert : d.insertProxy env row with
      | mk d₁ inserted =>
          cases hinsert' : d'.insertProxy env row with
          | mk d₁' inserted' =>
              rw [hinsert, hinsert'] at hdata hresult
              obtain rfl : inserted' = inserted := hresult
              rw [hinsert] at h
              cases inserted' with
              | error e => exact h
              | ok proxy => exact ih hdata h

/-- Rows of one client and node that are inserted and started, unless the first
error takes all of them back. -/
theorem AgreesBut.createEach {startError : String} {created rows : List Proxy} {nodeId : Option ℤ}
    (h : AgreesBut parse n ∅ d)
    (hcreated : ∀ p ∈ created, ∀ q, d.db.proxies.find p.id = some q →
      q.clientId.getD "" = clientId ∧ q.nodeId = nodeId)
    (hrows : ∀ row ∈ rows, row.enabled = true ∧ row.clientId.getD "" = clientId ∧
      row.nodeId = nodeId)
    (hrefused : nodeId = some n → RollsBack env d (created.map (·.id)) rows) :
    AgreesBut parse n ∅ (createEach parse env clientId startError d created rows).1 := by
  induction rows generalizing d created with
  | nil => exact h
  | cons row rows ih =>
      have hrollback : ∀ {d : Deployment}, AgreesBut parse n ∅ d →
          (∀ p ∈ created, ∀ q, d.db.proxies.find p.id = some q →
            q.clientId.getD "" = clientId ∧ q.nodeId = nodeId) →
          (nodeId = some n → ∀ p ∈ created, env.writes (.delete p.id) = none) →
          AgreesBut parse n ∅ (Controller.deleteEach env clientId d created) := by
        intro d hd hcreated hdeletes
        refine hd.deleteEach fun p hp q hq ↦ ?_
        obtain ⟨hfind, -, hnode⟩ := served_eq_some.mp hq
        obtain ⟨hclient, hsame⟩ := hcreated p hp q hfind
        exact ⟨hclient, hdeletes (hsame.symm.trans hnode) p hp⟩
      rw [Controller.createEach]
      rw [RollsBack] at hrefused
      cases hinsert : d.insertProxy env row with
      | mk d₁ inserted =>
          rw [hinsert] at hrefused
          cases inserted with
          | error e =>
              obtain ⟨-, -, rfl⟩ | ⟨_, -, hok, -⟩ := insertProxy_cases hinsert
              · exact hrollback h hcreated fun hnode p hp ↦
                  hrefused hnode p.id (List.mem_map_of_mem hp)
              · cases hok
          | ok proxy =>
              obtain ⟨hproxy, hfind, -⟩ := find_insertProxy hinsert
              have hnew : ∀ q, d₁.db.proxies.find proxy.id = some q →
                  q.enabled = true ∧ q.clientId.getD "" = clientId ∧ q.nodeId = nodeId := by
                intro q hq
                rw [hfind, if_pos rfl] at hq
                obtain rfl := Option.some.inj hq
                rw [hproxy]
                exact hrows row List.mem_cons_self
              have hcreated₁ : ∀ p ∈ created ++ [proxy], ∀ q, d₁.db.proxies.find p.id = some q →
                  q.clientId.getD "" = clientId ∧ q.nodeId = nodeId := by
                intro p hp q hq
                by_cases hid : p.id = proxy.id
                · exact (hnew q (hid ▸ hq)).2
                · rw [hfind, if_neg hid] at hq
                  rcases List.mem_append.mp hp with hp | hp
                  · exact hcreated p hp q hq
                  · exact absurd (congrArg Proxy.id (List.mem_singleton.mp hp)) hid
              dsimp only
              cases hstart : d₁.startProxy parse env clientId proxy.id with
              | mk d₂ started =>
                  have hsame := startProxy_sameData hstart
                  obtain ⟨h₂, hfailed⟩ := AgreesBut.startProxy ((h.insertProxy hinsert).2 proxy rfl)
                    hstart fun q hq _ ↦ ⟨(hnew q hq).1, (hnew q hq).2.1⟩
                  rw [← hsame.db] at hfind hcreated₁
                  cases started with
                  | error e =>
                      by_cases hnode : nodeId = some n
                      · -- A command to the node has failed.
                        intro hsent
                        have hsent₂ := SentOk.of_deleteEach ((find_deleteProxy Prod.mk.eta.symm).1 hsent)
                        have hnone := served_eq_none.mp (hfailed e rfl hsent₂) proxy
                          ((hfind _).trans (if_pos rfl))
                        obtain ⟨henabled, -, hon⟩ := hrows row List.mem_cons_self
                        rw [hproxy] at hnone
                        rw [hnone (hon.trans hnode)] at henabled
                        cases henabled
                      · have hunserved :=
                          @served_deleteEach env n proxy.id clientId d₂ created (hfailed e rfl)
                        have h₃ := hrollback h₂
                          (fun p hp ↦ hcreated₁ p (List.mem_append_left [proxy] hp))
                          fun hon ↦ absurd hon hnode
                        exact (h₃.mono (Set.empty_subset _)).deleteProxy
                          (h₃.stopped (Set.notMem_empty proxy.id) hunserved) Prod.mk.eta.symm
                          fun _ ↦ hunserved
                  | ok =>
                      refine ih h₂ hcreated₁ (fun r hr ↦ hrows r (List.mem_cons_of_mem row hr))
                        fun hnode ↦ ?_
                      rw [List.map_append, List.map_singleton]
                      exact (hrefused hnode).congr hsame

/-- An update, and then a start or a stop as the new row asks for it. -/
theorem AgreesBut.toggle {active : ActiveProxy} {enabled : Bool} {updated : Proxy}
    (h : AgreesBut parse n ∅ d) (hactive : ∀ p, (active.set p).enabled = enabled)
    (hclient : ∀ p, d.db.proxies.find id = some p → p.nodeId = some n →
      p.clientId.getD "" = clientId)
    (hupdate : d.updateProxy env id active = (d', .ok updated)) :
    AgreesBut parse n ∅
      (if enabled then (d'.startProxy parse env clientId id).1
      else (d'.stopProxy env clientId id).1) := by
  have hupdated := h.updateProxy hupdate
  have hrow : ∀ p, d'.db.proxies.find id = some p → p.enabled = enabled ∧
      (p.nodeId = some n → p.clientId.getD "" = clientId) := by
    intro p hp
    obtain ⟨q, hq, hplace⟩ := place_updateProxy hupdate hp
    obtain ⟨-, ⟨e, he, -⟩ | ⟨row, -, -, hfind⟩⟩ := rows_updateProxy hupdate
    · cases he
    · rw [hfind, if_pos rfl] at hp
      obtain rfl := Option.some.inj hp
      refine ⟨hactive row, fun hnode ↦ ?_⟩
      rw [clientId_of_place hplace]
      exact hclient q hq ((nodeId_of_place hplace).symm.trans hnode)
  cases enabled with
  | true =>
      rw [if_pos rfl]
      exact (hupdated.startProxy Prod.mk.eta.symm fun p hp hnode ↦
        ⟨(hrow p hp).1, (hrow p hp).2 hnode⟩).1
  | false =>
      rw [if_neg Bool.false_ne_true]
      have hsame : SameData d' (d'.stopProxy env clientId id).1 :=
        stopProxy_sameData Prod.mk.eta.symm
      have hstopped : d'.stopProxy env clientId id = (_, _) := Prod.mk.eta.symm
      have hstop := hupdated.stopProxy hstopped
      rw [Set.insert_idem] at hstop
      refine hstop.settle (hupdated.stopped_of_stopProxy Prod.mk.eta.symm fun p hp ↦ (hrow p hp).2)
        fun _ ↦ ?_
      rw [hsame.db]
      exact served_eq_none.mpr fun p hp _ ↦ (hrow p hp).1

theorem AgreesBut.toggleEach {enabled : Bool} {ps : List Proxy} (h : AgreesBut parse n ∅ d)
    (hclient : ∀ p ∈ ps, p.enabled ≠ enabled → ∀ q, d.db.proxies.find p.id = some q →
      q.nodeId = some n → q.clientId.getD "" = clientId) :
    AgreesBut parse n ∅ (toggleEach parse env clientId enabled d ps) := by
  induction ps generalizing d with
  | nil => exact h
  | cons p ps ih =>
      have hrest : ∀ q ∈ ps, q.enabled ≠ enabled → ∀ row, d.db.proxies.find q.id = some row →
          row.nodeId = some n → row.clientId.getD "" = clientId :=
        fun q hq ↦ hclient q (List.mem_cons_of_mem p hq)
      rw [Controller.toggleEach]
      by_cases hsame : (p.enabled == enabled) = true
      · rw [if_pos hsame]
        exact ih h hrest
      · rw [if_neg hsame]
        cases hupdate : d.updateProxy env p.id (setEnabled enabled env.now) with
        | mk d₁ result =>
            have hplaces : ∀ {d₂ : Deployment}, SameData d₁ d₂ → ∀ q ∈ ps, q.enabled ≠ enabled →
                ∀ row, d₂.db.proxies.find q.id = some row → row.nodeId = some n →
                  row.clientId.getD "" = clientId := by
              intro d₂ hdata q hq hne row hrow hnode
              rw [hdata.db] at hrow
              obtain ⟨old, hold, hplace⟩ := place_updateProxy hupdate hrow
              rw [clientId_of_place hplace]
              exact hrest q hq hne old hold ((nodeId_of_place hplace).symm.trans hnode)
            cases result with
            | error e =>
                obtain ⟨-, ⟨e', -, rfl⟩ | ⟨_, -, hok, -⟩⟩ := rows_updateProxy hupdate
                · exact ih h hrest
                · cases hok
            | ok updated =>
                have hne : p.enabled ≠ enabled := by simpa using hsame
                have htoggle := h.toggle (fun _ ↦ rfl) (hclient p List.mem_cons_self hne) hupdate
                dsimp only
                by_cases henabled : enabled = true
                · rw [if_pos henabled] at htoggle ⊢
                  exact ih htoggle (hplaces (startProxy_sameData Prod.mk.eta.symm))
                · rw [if_neg henabled] at htoggle ⊢
                  exact ih htoggle (hplaces (stopProxy_sameData Prod.mk.eta.symm))

theorem getD_of_any_ne {α : Type} [DecidableEq α] {o : Option α} {a : α}
    (h : o.any (· != a) = false) : o.getD a = a := by
  cases o with
  | none => rfl
  | some b => simpa using h

theorem UpdateGroupRequest.sameSettings {req : UpdateGroupRequest} {single : Bool}
    {now : NaiveDateTime} {p : Proxy} (h : req.configChanged p = false) :
    p.SameSettings ((req.active single now).set p) := by
  simp only [configChanged, Bool.or_eq_false_iff] at h
  refine ⟨rfl, fun _ ↦ ?_⟩
  simp only [active, Proxy.config, getD_of_any_ne h.1.1, getD_of_any_ne h.1.2, getD_of_any_ne h.2]

/-- A loop of updates loosens only what it is told to. -/
theorem AgreesBut.updateEach {req : UpdateGroupRequest} {single : Bool} {ps : List Proxy}
    {loose : Set ℤ} (h : AgreesBut parse n loose d)
    (hrows : ∀ p ∈ ps, d.db.proxies.find p.id = some p)
    (hids : ps.Pairwise fun p q ↦ p.id ≠ q.id)
    (hloose : ∀ p ∈ ps, p.enabled = true → p.nodeId = some n → req.configChanged p = true →
      p.id ∈ loose) :
    AgreesBut parse n loose (updateEach env req single d ps) := by
  induction ps generalizing d with
  | nil => exact h
  | cons p ps ih =>
      rw [List.pairwise_cons] at hids
      have hrest : ∀ q ∈ ps, q.enabled = true → q.nodeId = some n → req.configChanged q = true →
          q.id ∈ loose := fun q hq ↦ hloose q (List.mem_cons_of_mem p hq)
      rw [Controller.updateEach]
      split_ifs
      · obtain ⟨d₁, result, hupdate⟩ : ∃ d₁ result,
            d.updateProxy env p.id (req.active single env.now) = (d₁, result) := ⟨_, _, rfl⟩
        rw [hupdate]
        refine ih ?_ (fun q hq ↦ ?_) hids.2 hrest
        · by_cases hmem : p.id ∈ loose
          · rw [← Set.insert_eq_of_mem hmem]
            exact h.updateProxy hupdate
          · refine h.updateProxy_same hupdate fun row hrow hnode ↦ ?_
            obtain rfl := Option.some.inj ((hrows p List.mem_cons_self).symm.trans hrow)
            cases henabled : p.enabled with
            | false => exact ⟨rfl, fun h ↦ by rw [henabled] at h; cases h⟩
            | true =>
                refine UpdateGroupRequest.sameSettings (Bool.eq_false_of_not_eq_true fun hchanged ↦ ?_)
                exact hmem (hloose p List.mem_cons_self henabled hnode hchanged)
        · obtain ⟨-, ⟨e, -, rfl⟩ | ⟨_, -, -, hfind⟩⟩ := rows_updateProxy hupdate
          · exact hrows q (List.mem_cons_of_mem p hq)
          · rw [hfind, if_neg (hids.1 q hq).symm]
            exact hrows q (List.mem_cons_of_mem p hq)
      · exact ih h (fun q hq ↦ hrows q (List.mem_cons_of_mem p hq)) hids.2 hrest

theorem find_updateEach {req : UpdateGroupRequest} {single : Bool} {ps : List Proxy} {q : Proxy}
    (hq : (updateEach env req single d ps).db.proxies.find id = some q) :
    ∃ p, d.db.proxies.find id = some p ∧ q.place = p.place ∧ q.enabled = p.enabled := by
  induction ps generalizing d with
  | nil => exact ⟨q, hq, rfl, rfl⟩
  | cons p ps ih =>
      rw [Controller.updateEach] at hq
      obtain ⟨r, hr, hplace, henabled⟩ := ih hq
      split_ifs at hr
      · have hupdate : d.updateProxy env p.id (req.active single env.now) = (_, _) :=
          Prod.mk.eta.symm
        obtain ⟨-, ⟨e, -, hsame⟩ | ⟨row, hrow, -, hfind⟩⟩ := rows_updateProxy hupdate
        · rw [hsame] at hr
          exact ⟨r, hr, hplace, henabled⟩
        · rw [hfind] at hr
          split_ifs at hr with hid
          · cases hr
            exact ⟨row, hid ▸ hrow, hplace.trans (ActiveProxy.place_set _ row), henabled⟩
          · exact ⟨r, hr, hplace, henabled⟩
      · exact ⟨r, hr, hplace, henabled⟩

/-- A loop of restarts settles the loose proxies, if it may stop them. -/
theorem AgreesBut.restartEach {ps : List Proxy} {Loose : Proxy → Prop}
    (h : AgreesBut parse n {id | ∃ p ∈ ps, Loose p ∧ p.id = id} d)
    (hloose : ∀ p ∈ ps, Loose p → p.enabled = true ∧ ∀ q, d.db.proxies.find p.id = some q →
      q.nodeId = some n → q.clientId.getD "" = clientId)
    (hrows : ∀ p ∈ ps, p.enabled = true → ∀ q, d.db.proxies.find p.id = some q → q.enabled = true) :
    AgreesBut parse n ∅ (restartEach parse env clientId d ps) := by
  induction ps generalizing d with
  | nil => exact h.mono fun id ⟨p, hp, _⟩ ↦ absurd hp List.not_mem_nil
  | cons p ps ih =>
      have hset : {id | ∃ q ∈ p :: ps, Loose q ∧ q.id = id} ⊆
          insert p.id {id | ∃ q ∈ ps, Loose q ∧ q.id = id} := by
        rintro id ⟨q, hq, hlooseq, rfl⟩
        rcases List.mem_cons.mp hq with rfl | hq
        · exact Set.mem_insert q.id _
        · exact Set.mem_insert_of_mem p.id ⟨q, hq, hlooseq, rfl⟩
      have hset' : ¬ Loose p → {id | ∃ q ∈ p :: ps, Loose q ∧ q.id = id} ⊆
          {id | ∃ q ∈ ps, Loose q ∧ q.id = id} := by
        rintro hnot id ⟨q, hq, hlooseq, rfl⟩
        rcases List.mem_cons.mp hq with rfl | hq
        · exact absurd hlooseq hnot
        · exact ⟨q, hq, hlooseq, rfl⟩
      have hloose' := fun q (hq : q ∈ ps) ↦ hloose q (List.mem_cons_of_mem p hq)
      have hrows' := fun q (hq : q ∈ ps) ↦ hrows q (List.mem_cons_of_mem p hq)
      rw [Controller.restartEach]
      split_ifs with henabled
      · obtain ⟨d₁, stopped, hstop⟩ : ∃ d₁ stopped, d.stopProxy env clientId p.id = (d₁, stopped) :=
          ⟨_, _, rfl⟩
        obtain ⟨d₂, started, hstart⟩ : ∃ d₂ started,
            d₁.startProxy parse env clientId p.id = (d₂, started) := ⟨_, _, rfl⟩
        have hsame : SameData d d₁ := stopProxy_sameData hstop
        have hsame' : SameData d₁ d₂ := startProxy_sameData hstart
        have hdb : d₂.db = d.db := hsame'.db.trans hsame.db
        rw [hstop, hstart]
        refine ih ?_ (by rwa [hdb]) (by rwa [hdb])
        by_cases hclient : ∀ q, d.db.proxies.find p.id = some q → q.nodeId = some n →
            q.clientId.getD "" = clientId
        · have hstopped := h.stopProxy hstop
          refine (AgreesBut.startProxy (hstopped.mono ?_) hstart fun q hq hnode ↦ ?_).1
          · exact Set.insert_subset (Set.mem_insert p.id _) hset
          · rw [hsame.db] at hq
            exact ⟨hrows p List.mem_cons_self henabled q hq, hclient q hq hnode⟩
        · have hnot : ¬ Loose p := fun hp ↦ hclient (hloose p List.mem_cons_self hp).2
          have hoff : ¬ OnNode d.db n clientId p.id := by
            rintro ⟨q, hq, hnode, hc⟩
            refine hclient fun r hr _ ↦ ?_
            obtain rfl := Option.some.inj (hq.symm.trans hr)
            exact hc
          have hstopped := h.command_of_not hsame (nodes_stopProxy_of_not hstop hoff)
            (·.of_stopProxy hstop)
          rw [← hsame.db] at hoff
          exact (hstopped.command_of_not hsame' (nodes_startProxy_of_not hstart hoff)
            (·.of_startProxy hstart)).mono (hset' hnot)
      · exact ih (h.mono (hset' fun hp ↦ henabled (hloose p List.mem_cons_self hp).1)) hloose' hrows'

/-- A loop of stops, sent with the client id of the rows, leaves nothing running. -/
theorem AgreesBut.stopEach {ps : List Proxy} {loose : Set ℤ} (h : AgreesBut parse n loose d)
    (hclient : ∀ p ∈ ps, ∀ q, d.db.proxies.find p.id = some q → q.nodeId = some n →
      q.clientId.getD "" = clientId) (hloose : ∀ p ∈ ps, p.id ∈ loose) :
    AgreesBut parse n loose (stopEach env clientId d ps) ∧
      (stopEach env clientId d ps).db = d.db ∧
      (∀ j, Stopped n j d → Stopped n j (stopEach env clientId d ps)) ∧
      ∀ p ∈ ps, Stopped n p.id (stopEach env clientId d ps) := by
  induction ps generalizing d with
  | nil => exact ⟨h, rfl, fun _ hj ↦ hj, fun _ hp ↦ absurd hp List.not_mem_nil⟩
  | cons p ps ih =>
      rw [Controller.stopEach]
      obtain ⟨d₁, stopped, hstop⟩ : ∃ d₁ stopped, d.stopProxy env clientId p.id = (d₁, stopped) :=
        ⟨_, _, rfl⟩
      have hsame : SameData d d₁ := stopProxy_sameData hstop
      have h₁ := h.stopProxy hstop
      rw [Set.insert_eq_of_mem (hloose p List.mem_cons_self)] at h₁
      have hrest := fun q (hq : q ∈ ps) ↦ hclient q (List.mem_cons_of_mem p hq)
      rw [← hsame.db] at hrest
      obtain ⟨hagrees, hdb, hkeep, hps⟩ := ih h₁ hrest
        fun q hq ↦ hloose q (List.mem_cons_of_mem p hq)
      rw [hstop]
      refine ⟨hagrees, hdb.trans hsame.db, fun j hj ↦ hkeep j (hj.stopProxy h hstop), fun q hq ↦ ?_⟩
      rcases List.mem_cons.mp hq with rfl | hq
      · exact hkeep _ (h.stopped_of_stopProxy hstop (hclient q List.mem_cons_self))
      · exact hps q hq

end Loops

/-! ## Handlers -/

section Handlers

variable {parse : UrlParser} {render : Url → String} {env : HandlerEnv} {auth : AuthUser} {n : ℤ}
  {d d' : Deployment}

theorem AgreesBut.createProxy {req : CreateProxyRequest} (h : AgreesBut parse n ∅ d) :
    AgreesBut parse n ∅ (createProxy parse render env auth d req).1 := by
  rw [Controller.createProxy]
  cases hchecks : createProxyChecks parse render env d auth req with
  | error e => exact h
  | ok row =>
      have henabled := (createProxyChecks_ok hchecks).enabled
      dsimp only
      cases hinsert : d.insertProxy env row with
      | mk d₁ inserted =>
          cases inserted with
          | error e => exact (h.insertProxy hinsert).1 e rfl
          | ok proxy =>
              obtain ⟨hproxy, hfind, -⟩ := find_insertProxy hinsert
              dsimp only
              cases hstart : d₁.startProxy parse env (proxy.clientId.getD "") proxy.id with
              | mk d₂ started =>
                  obtain ⟨h₂, hfailed⟩ := AgreesBut.startProxy ((h.insertProxy hinsert).2 proxy rfl)
                    hstart fun q hq _ ↦ by
                      rw [hfind, if_pos rfl] at hq
                      obtain rfl := Option.some.inj hq
                      exact ⟨by rw [hproxy]; exact henabled, rfl⟩
                  cases started with
                  | ok => exact h₂
                  | error e =>
                      exact (h₂.mono (Set.empty_subset _)).deleteProxy
                        (h₂.stopped (Set.notMem_empty proxy.id) (hfailed e rfl))
                        Prod.mk.eta.symm fun _ ↦ hfailed e rfl

/-- An update that asks for no restart keeps the settings. -/
theorem UpdatePlan.sameSettings {plan : UpdatePlan} {req : UpdateProxyRequest} {now : NaiveDateTime}
    (h : (req.enabled.any (plan.original.enabled != ·) || (plan.configChanged req &&
      ((plan.active req now).set plan.original).enabled)) = false) :
    plan.original.SameSettings ((plan.active req now).set plan.original) := by
  rw [Bool.or_eq_false_iff] at h
  have henabled : req.enabled.getD plan.original.enabled = plan.original.enabled :=
    getD_of_any_ne (by simpa [bne_comm] using h.1)
  refine ⟨henabled, fun hon ↦ ?_⟩
  have hset : ((plan.active req now).set plan.original).enabled = true := henabled.trans hon
  rw [hset, Bool.and_true] at h
  have hconfig := h.2
  simp only [configChanged, Bool.or_eq_false_iff, bne_eq_false_iff_eq] at hconfig
  obtain ⟨⟨⟨⟨⟨hdomain, hupstream⟩, hkind⟩, hip⟩, hlocal⟩, hremote⟩ := hconfig
  simp only [active, Proxy.config, henabled, hdomain, hupstream, getD_of_any_ne hkind,
    getD_of_any_ne hip, getD_of_any_ne hlocal, getD_of_any_ne hremote]

theorem SentOk.of_revertUpdate {clientId : String} {original : Proxy}
    (hsent : SentOk n (revertUpdate parse env d clientId original)) : SentOk n d := by
  unfold revertUpdate at hsent
  cases hupdate : d.updateProxy env original.id (restore original env.now) with
  | mk d₁ result =>
      obtain ⟨⟨-, hcommands⟩, -⟩ := rows_updateProxy hupdate
      have hsent₁ : SentOk n d₁ → SentOk n d := fun h ↦ by rwa [SentOk, ← hcommands]
      rw [hupdate] at hsent
      apply hsent₁
      cases result with
      | error e => exact hsent
      | ok row =>
          dsimp only at hsent
          split_ifs at hsent
          · exact hsent.of_startProxy Prod.mk.eta.symm
          · exact hsent

/-- Putting back the row of a proxy that is not on the node. -/
theorem AgreesBut.revertUpdate {clientId : String} {original : Proxy} (h : AgreesBut parse n ∅ d)
    (hnode : ∀ p, d.db.proxies.find original.id = some p → p.nodeId ≠ some n) :
    AgreesBut parse n ∅ (revertUpdate parse env d clientId original) := by
  rw [Controller.revertUpdate]
  cases hupdate : d.updateProxy env original.id (restore original env.now) with
  | mk d₁ result =>
      have h₁ := h.updateProxy_same hupdate fun p hp hon ↦ absurd hon (hnode p hp)
      cases result with
      | error e => exact h₁
      | ok row =>
          dsimp only
          split_ifs
          · refine (AgreesBut.startProxy (h₁.mono (Set.empty_subset _)) Prod.mk.eta.symm
              fun p hp hon ↦ ?_).1
            obtain ⟨q, hq, hplace⟩ := place_updateProxy hupdate hp
            exact absurd ((nodeId_of_place hplace).symm.trans hon) (hnode q hq)
          · exact h₁

theorem AgreesBut.restartUpdated {clientId : String} {original updated : Proxy}
    (h : AgreesBut parse n {updated.id} d) (hid : original.id = updated.id)
    (hfind : d.db.proxies.find updated.id = some updated)
    (hclient : updated.clientId.getD "" = clientId) :
    AgreesBut parse n ∅ (restartUpdated parse env d clientId original updated).1 := by
  rw [Controller.restartUpdated]
  cases hstop : d.stopProxy env clientId updated.id with
  | mk d₁ stopped =>
      have hsame := stopProxy_sameData hstop
      have hstopped := h.stopped_of_stopProxy hstop fun p hp _ ↦ by
        obtain rfl := Option.some.inj (hfind.symm.trans hp)
        exact hclient
      have h₁ := h.stopProxy hstop
      rw [Set.pair_eq_singleton, ← insert_empty_eq] at h₁
      rw [← hsame.db] at hfind
      dsimp only
      split_ifs with henabled
      · cases hstart : d₁.startProxy parse env clientId updated.id with
        | mk d₂ started =>
            have hsame₂ := startProxy_sameData hstart
            obtain ⟨h₂, hfailed⟩ := AgreesBut.startProxy h₁ hstart fun p hp _ ↦ by
              obtain rfl := Option.some.inj (hfind.symm.trans hp)
              exact ⟨henabled, hclient⟩
            rw [← hsame₂.db] at hfind
            cases started with
            | ok => exact h₂
            | error e =>
                dsimp only
                by_cases hnode : updated.nodeId = some n
                · intro hsent
                  have hnone := hfailed e rfl hsent.of_revertUpdate
                  rw [served_eq_some.mpr ⟨hfind, henabled, hnode⟩] at hnone
                  cases hnone
                · refine h₂.revertUpdate fun p hp ↦ ?_
                  rw [hid, hfind] at hp
                  obtain rfl := Option.some.inj hp
                  exact hnode
      · refine h₁.settle hstopped fun _ ↦ served_eq_none.mpr fun p hp _ ↦ ?_
        obtain rfl := Option.some.inj (hfind.symm.trans hp)
        exact Bool.eq_false_of_not_eq_true henabled

theorem AgreesBut.updateProxyHandler {id : ℤ} {req : UpdateProxyRequest}
    (h : AgreesBut parse n ∅ d) :
    AgreesBut parse n ∅ (Controller.updateProxy parse render env auth d id req).1 := by
  rw [Controller.updateProxy]
  cases hchecks : updateProxyChecks parse render env d auth id req with
  | error e => exact h
  | ok plan =>
      have hfound := (updateProxyChecks_ok hchecks).found
      obtain rfl : plan.original.id = id := Table.key_of_find hfound
      dsimp only
      cases hupdate : d.updateProxy env plan.original.id (plan.active req env.now) with
      | mk d₁ result =>
          obtain ⟨-, ⟨e, rfl, rfl⟩ | ⟨row, hrow, rfl, hfind⟩⟩ := rows_updateProxy hupdate
          · exact h
          · obtain rfl := Option.some.inj (hfound.symm.trans hrow)
            dsimp only
            split_ifs with hrestart
            · refine AgreesBut.restartUpdated ?_ rfl ((hfind _).trans (if_pos rfl)) rfl
              have hupdated := h.updateProxy hupdate
              rwa [insert_empty_eq] at hupdated
            · refine h.updateProxy_same hupdate fun row hrow _ ↦ ?_
              obtain rfl := Option.some.inj (hfound.symm.trans hrow)
              exact UpdatePlan.sameSettings (Bool.eq_false_of_not_eq_true hrestart)

theorem AgreesBut.deleteProxyHandler {id : ℤ} (h : AgreesBut parse n ∅ d)
    (hdelete : ∀ proxy, deleteProxyChecks env d auth id = .ok proxy →
      (d.db.served n id).isSome → env.writes (.delete id) = none) :
    AgreesBut parse n ∅ (Controller.deleteProxy env auth d id).1 := by
  rw [Controller.deleteProxy]
  cases hchecks : deleteProxyChecks env d auth id with
  | error e => exact h
  | ok proxy =>
      have hfound := (deleteProxyChecks_ok hchecks).1
      have hserved : ∀ p, d.db.served n id = some p →
          p.clientId.getD "" = proxy.clientId.getD "" ∧ env.writes (.delete id) = none := by
        intro p hp
        obtain rfl := Option.some.inj (hfound.symm.trans (served_eq_some.mp hp).1)
        exact ⟨rfl, hdelete _ hchecks (by rw [hp]; rfl)⟩
      have hagrees := h.stopAndDelete hserved
      dsimp only
      split <;> next hgone => rwa [hgone] at hagrees

theorem AgreesBut.batchCreateProxies {req : BatchCreateProxyRequest} (h : AgreesBut parse n ∅ d)
    (hrefused : batchCreateChecks env d auth req = .ok () → req.nodeId = some n →
      RollsBack env d [] (batchRows env req)) :
    AgreesBut parse n ∅ (batchCreateProxies parse env auth d req).1 := by
  rw [Controller.batchCreateProxies]
  cases hchecks : batchCreateChecks env d auth req with
  | error e => exact h
  | ok =>
      refine h.createEach (fun p hp ↦ absurd hp List.not_mem_nil) (fun row hrow ↦ ?_)
        (hrefused hchecks)
      obtain ⟨port, -, rfl⟩ := List.mem_map.mp hrow
      exact ⟨rfl, rfl, rfl⟩

theorem AgreesBut.addPortsToProxyGroup {groupId : String} {req : AddPortsToGroupRequest}
    (h : AgreesBut parse n ∅ d)
    (hrefused : ∀ template, addPortsChecks env d auth groupId req = .ok template →
      template.nodeId = some n → RollsBack env d [] (addedRows env groupId template req)) :
    AgreesBut parse n ∅ (addPortsToProxyGroup parse env auth d groupId req).1 := by
  rw [Controller.addPortsToProxyGroup]
  cases hchecks : addPortsChecks env d auth groupId req with
  | error e => exact h
  | ok template =>
      refine h.createEach (fun p hp ↦ absurd hp List.not_mem_nil) (fun row hrow ↦ ?_)
        (hrefused template hchecks)
      obtain ⟨port, -, rfl⟩ := List.mem_map.mp hrow
      exact ⟨rfl, rfl, rfl⟩

/-! ### Groups -/

section Groups

variable {groupId : String} {first : Proxy} {rest : List Proxy}

theorem find_of_group
    (hverify : verifyProxyGroupOwnership env.queries d.db auth groupId = .ok (first, rest)) :
    (∀ p ∈ first :: rest, d.db.proxies.find p.id = some p) ∧
      (first :: rest).Pairwise fun p q ↦ p.id ≠ q.id := by
  obtain ⟨hrows, -⟩ := verifyProxyGroupOwnership_ok hverify
  rw [← hrows]
  constructor
  · exact fun p hp ↦ Table.mem_iff_find.mp (List.mem_filter.mp hp).1
  · exact (List.pairwise_map.mp d.db.proxies.nodup).filter _

theorem AgreesBut.toggleProxyGroup {enabled : Bool} (h : AgreesBut parse n ∅ d)
    (hclient : ∀ first rest, verifyProxyGroupOwnership env.queries d.db auth groupId =
      .ok (first, rest) → ∀ p ∈ rest, p.nodeId = some n → p.enabled ≠ enabled →
        p.clientId.getD "" = first.clientId.getD "") :
    AgreesBut parse n ∅ (toggleProxyGroup parse env auth d groupId enabled).1 := by
  rw [Controller.toggleProxyGroup]
  cases hverify : verifyProxyGroupOwnership env.queries d.db auth groupId with
  | error e => exact h
  | ok group =>
      obtain ⟨first, rest⟩ := group
      refine h.toggleEach fun p hp hne q hq hnode ↦ ?_
      obtain rfl := Option.some.inj (((find_of_group hverify).1 p hp).symm.trans hq)
      rcases List.mem_cons.mp hp with rfl | hp
      · rfl
      · exact hclient first rest hverify p hp hnode hne

theorem AgreesBut.deleteProxyGroup (h : AgreesBut parse n ∅ d)
    (hclient : ∀ first rest, verifyProxyGroupOwnership env.queries d.db auth groupId =
      .ok (first, rest) → ∀ p ∈ first :: rest, p.nodeId = some n → p.enabled = true →
        p.clientId.getD "" = first.clientId.getD "" ∧ env.writes (.delete p.id) = none) :
    AgreesBut parse n ∅ (deleteProxyGroup env auth d groupId).1 := by
  rw [Controller.deleteProxyGroup]
  cases hverify : verifyProxyGroupOwnership env.queries d.db auth groupId with
  | error e => exact h
  | ok group =>
      obtain ⟨first, rest⟩ := group
      refine h.deleteEach fun p hp q hq ↦ ?_
      obtain ⟨hfind, henabled, hnode⟩ := served_eq_some.mp hq
      obtain rfl := Option.some.inj (((find_of_group hverify).1 p hp).symm.trans hfind)
      exact hclient first rest hverify p hp hnode henabled

theorem AgreesBut.updateProxyGroup {req : UpdateGroupRequest} (h : AgreesBut parse n ∅ d)
    (hclient : ∀ first rest, verifyProxyGroupOwnership env.queries d.db auth groupId =
      .ok (first, rest) → ∀ p ∈ rest, p.nodeId = some n → p.enabled = true →
        req.configChanged p = true → p.clientId.getD "" = first.clientId.getD "") :
    AgreesBut parse n ∅ (updateProxyGroup parse env auth d groupId req).1 := by
  rw [Controller.updateProxyGroup]
  split
  · exact h
  · next first rest hchecks =>
      obtain ⟨-, -, hverify⟩ := bind_eq_ok.mp hchecks
      obtain ⟨hrows, hids⟩ := find_of_group hverify
      dsimp only
      split_ifs with hchanged
      · refine @AgreesBut.restartEach _ _ _ _ _ _ (fun p ↦ p.enabled = true ∧ p.nodeId = some n ∧
          req.configChanged p = true) ?_ (fun p hp hloose ↦ ⟨hloose.1, fun q hq _ ↦ ?_⟩)
          fun p hp henabled q hq ↦ ?_
        · refine (h.mono (Set.empty_subset _)).updateEach hrows hids fun p hp henabled hnode hc ↦ ?_
          exact ⟨p, hp, ⟨henabled, hnode, hc⟩, rfl⟩
        · obtain ⟨r, hr, hplace, -⟩ := find_updateEach hq
          obtain rfl := Option.some.inj ((hrows p hp).symm.trans hr)
          rw [clientId_of_place hplace]
          rcases List.mem_cons.mp hp with rfl | hp
          · rfl
          · exact hclient first rest hverify p hp hloose.2.1 hloose.1 hloose.2.2
        · obtain ⟨r, hr, -, hsame⟩ := find_updateEach hq
          obtain rfl := Option.some.inj ((hrows p hp).symm.trans hr)
          exact hsame.trans henabled
      · refine h.updateEach hrows hids fun p hp _ _ hc ↦ ?_
        exact absurd (List.any_eq_true.mpr ⟨p, hp, hc⟩) hchanged

end Groups

/-! ### Clients and users -/

theorem AgreesBut.deleteClient {id : ℤ} (h : AgreesBut parse n ∅ d)
    (hclient : ∀ client, verifyClientOwnership env.queries d.db auth id = .ok client →
      env.writes (.deleteClient id) = none → ∀ j p, d.db.served n j = some p →
        p.parsedClientId ≠ some id) :
    AgreesBut parse n ∅ (deleteClient env auth d id).1 := by
  rw [Controller.deleteClient]
  cases hverify : verifyClientOwnership env.queries d.db auth id with
  | error e => exact h
  | ok client =>
      dsimp only
      cases hwrite : env.writes (.deleteClient id) with
      | some e => exact h
      | none =>
          refine @AgreesBut.remove _ _ _ _ _ (·.parsedClientId == some id) h rfl rfl rfl
            fun j p hp hgone ↦ ?_
          refine h.stopped (Set.notMem_empty j) fun _ ↦ Option.eq_none_iff_forall_ne_some.mpr ?_
          intro q hq
          obtain rfl := Option.some.inj (hp.symm.trans (served_eq_some.mp hq).1)
          exact hclient client hverify hwrite j p hq (beq_iff_eq.mp hgone)

theorem AgreesBut.deleteUser {id : ℤ} (h : AgreesBut parse n ∅ d)
    (huser : ∀ directProxies, deleteUserChecks env auth d id = .ok directProxies →
      ∀ j p, d.db.served n j = some p → p.userId = some id →
        (p.clientId = none ↔ env.writes (.deleteUser id) = none)) :
    AgreesBut parse n ∅ (deleteUser env auth d id).1 := by
  rw [Controller.deleteUser]
  cases hchecks : deleteUserChecks env auth d id with
  | error e => exact h
  | ok directProxies =>
      have hserved := huser directProxies hchecks
      have hdirect : ∀ p, p ∈ directProxies ↔
          p ∈ d.db.proxies.rows ∧ p.clientId = none ∧ p.userId = some id := by
        simp only [deleteUserChecks, bind_eq_ok, pure, Except.pure, Except.ok.injEq] at hchecks
        obtain ⟨-, -, -, -, rfl⟩ := hchecks
        intro p
        rw [List.mem_filter, Bool.and_eq_true, Option.isNone_iff_eq_none, beq_iff_eq]
      have hfind : ∀ p ∈ directProxies, d.db.proxies.find p.id = some p := fun p hp ↦
        Table.mem_iff_find.mp ((hdirect p).mp hp).1
      obtain ⟨h₁, hdb, -, hstopped⟩ := @AgreesBut.stopEach parse env n "" d
        directProxies _ (h.mono (Set.empty_subset {id | ∃ p ∈ directProxies, p.id = id}))
        (fun p hp q hq _ ↦ by
          obtain rfl := Option.some.inj ((hfind p hp).symm.trans hq)
          rw [((hdirect p).mp hp).2.1, Option.getD_none])
        fun p hp ↦ ⟨p, hp, rfl⟩
      dsimp only
      generalize Controller.stopEach env "" d directProxies = d₁ at h₁ hdb hstopped ⊢
      cases hwrite : env.writes (.deleteUser id) with
      | some e =>
          refine h₁.settleAll ?_
          rintro - ⟨p, hp, rfl⟩
          refine ⟨hstopped p hp, Option.eq_none_iff_forall_ne_some.mpr fun q hq ↦ ?_⟩
          rw [hdb] at hq
          obtain rfl := Option.some.inj ((hfind p hp).symm.trans (served_eq_some.mp hq).1)
          have hnone := (hserved p.id p hq ((hdirect p).mp hp).2.2).mp ((hdirect p).mp hp).2.1
          rw [hwrite] at hnone
          cases hnone
      | none =>
          have hgone : ∀ j p, d₁.db.proxies.find j = some p → (p.userId == some id) = true →
              Stopped n j d₁ := by
            intro j p hp huserId
            rw [hdb] at hp
            rw [beq_iff_eq] at huserId
            obtain rfl : p.id = j := Table.key_of_find hp
            by_cases hclient : p.clientId = none
            · exact hstopped p ((hdirect p).mpr ⟨Table.mem_iff_find.mpr hp, hclient, huserId⟩)
            · refine h₁.stopped ?_ fun _ ↦ Option.eq_none_iff_forall_ne_some.mpr fun q hq ↦ ?_
              · rintro ⟨q, hq, hid⟩
                have hfindq := hfind q hq
                rw [hid, hp] at hfindq
                obtain rfl := Option.some.inj hfindq
                exact hclient ((hdirect p).mp hq).2.1
              · rw [hdb] at hq
                obtain rfl := Option.some.inj (hp.symm.trans (served_eq_some.mp hq).1)
                exact hclient ((hserved p.id p hq huserId).mpr hwrite)
          refine (@AgreesBut.remove _ _ _ { d₁ with
              db := d₁.db.deleteUser id
              userNodes := d₁.userNodes.filter (·.1 != id) } _ _ h₁ rfl rfl rfl hgone).settleAll ?_
          rintro - ⟨p, hp, rfl⟩
          refine ⟨hstopped p hp, served_eq_none.mpr fun q hq ↦ ?_⟩
          have hfiltered : (d₁.db.proxies.filter fun p ↦ !(p.userId == some id)).find p.id =
            some q := hq
          rw [Table.find_filter, hdb, hfind p hp, Option.filter_some, ((hdirect p).mp hp).2.2] at hfiltered
          simp at hfiltered

end Handlers

/-! ## Runs -/

/-- A request, with who makes it and what it meets. -/
structure Arrival where
  env : HandlerEnv
  auth : Option AuthUser
  request : Request

def Arrival.handle (parse : UrlParser) (render : Url → String) (d : Deployment) (a : Arrival) :
    Deployment :=
  (Controller.handle parse render a.env a.auth d a.request).1

/-- Requests are handled one at a time. -/
def requestStep (parse : UrlParser) (render : Url → String) (d : Deployment) (a : Arrival) :
    Option Deployment := some (a.handle parse render d)

/-- The record of commands and writes is empty when a request arrives. -/
def Deployment.fresh (d : Deployment) : Deployment := { d with commands := [], written := [] }

/-- What the request takes from the node is stopped, and what it stops for a deletion
is deleted: the proxies of a group are addressed by their own client, the database
refuses no deletion of a proxy that has been stopped, and no enabled proxy goes with
its client, or with its user unless it is direct. -/
def StopsWhatItRemoves (nodeId : ℤ) (env : HandlerEnv) (auth : AuthUser) (d : Deployment) :
    Request → Prop
  | .proxy (.create _) | .proxy (.update _ _) => True
  | .proxy (.batchCreate req) =>
      batchCreateChecks env d auth req = .ok () → req.nodeId = some nodeId →
        RollsBack env d [] (batchRows env req)
  | .proxy (.addPorts groupId req) =>
      ∀ template, addPortsChecks env d auth groupId req = .ok template →
        template.nodeId = some nodeId → RollsBack env d [] (addedRows env groupId template req)
  | .proxy (.delete id) =>
      ∀ proxy, deleteProxyChecks env d auth id = .ok proxy → (d.db.served nodeId id).isSome →
        env.writes (.delete id) = none
  | .proxy (.toggleGroup groupId enabled) =>
      ∀ first rest, verifyProxyGroupOwnership env.queries d.db auth groupId = .ok (first, rest) →
        ∀ p ∈ rest, p.nodeId = some nodeId → p.enabled ≠ enabled →
          p.clientId.getD "" = first.clientId.getD ""
  | .proxy (.deleteGroup groupId) =>
      ∀ first rest, verifyProxyGroupOwnership env.queries d.db auth groupId = .ok (first, rest) →
        ∀ p ∈ first :: rest, p.nodeId = some nodeId → p.enabled = true →
          p.clientId.getD "" = first.clientId.getD "" ∧ env.writes (.delete p.id) = none
  | .proxy (.updateGroup groupId req) =>
      ∀ first rest, verifyProxyGroupOwnership env.queries d.db auth groupId = .ok (first, rest) →
        ∀ p ∈ rest, p.nodeId = some nodeId → p.enabled = true → req.configChanged p = true →
          p.clientId.getD "" = first.clientId.getD ""
  | .deleteClient id =>
      ∀ client, verifyClientOwnership env.queries d.db auth id = .ok client →
        env.writes (.deleteClient id) = none →
          ∀ j p, d.db.served nodeId j = some p → p.parsedClientId ≠ some id
  | .deleteUser id =>
      ∀ directProxies, deleteUserChecks env auth d id = .ok directProxies →
        ∀ j p, d.db.served nodeId j = some p → p.userId = some id →
          (p.clientId = none ↔ env.writes (.deleteUser id) = none)

section Runs

variable {parse : UrlParser} {render : Url → String} {n : ℤ} {d d' : Deployment} {a : Arrival}

theorem Agrees.handle (h : Agrees parse n d) (hsent : SentOk n (a.handle parse render d))
    (hstops : ∀ auth ∈ a.auth, StopsWhatItRemoves n a.env auth d.fresh a.request) :
    Agrees parse n (a.handle parse render d) := by
  have hfresh : AgreesBut parse n ∅ d.fresh := Agrees.agreesBut (d := d.fresh) h
  refine AgreesBut.agrees ?_ hsent
  unfold Arrival.handle Controller.handle
  cases hauth : a.auth with
  | none => exact hfresh
  | some auth =>
      have hstops := hstops auth hauth
      cases hrequest : a.request with
      | deleteClient id =>
          rw [hrequest] at hstops
          exact hfresh.deleteClient hstops
      | deleteUser id =>
          rw [hrequest] at hstops
          exact hfresh.deleteUser hstops
      | proxy request =>
          rw [hrequest] at hstops
          cases request with
          | create req => exact hfresh.createProxy
          | batchCreate req => exact hfresh.batchCreateProxies hstops
          | update id req => exact hfresh.updateProxyHandler
          | delete id => exact hfresh.deleteProxyHandler hstops
          | toggleGroup groupId enabled => exact hfresh.toggleProxyGroup hstops
          | deleteGroup groupId => exact hfresh.deleteProxyGroup hstops
          | updateGroup groupId req => exact hfresh.updateProxyGroup hstops
          | addPorts groupId req => exact hfresh.addPortsToProxyGroup hstops

/-- In a run of requests whose commands to the node all succeed, and each of which
stops what it removes, the node runs after every request exactly the enabled
proxies assigned to it, with their current settings, if it did so at first. -/
theorem agrees_of_run {arrivals : List Arrival} (hstart : Agrees parse n d)
    (hrequests : Within (requestStep parse render)
      (fun d a ↦ SentOk n (a.handle parse render d) ∧
        ∀ auth ∈ a.auth, StopsWhatItRemoves n a.env auth d.fresh a.request) d arrivals)
    (hrun : run (requestStep parse render) d arrivals = some d') : Agrees parse n d' := by
  have hstep : ∀ s a t, Agrees parse n s → (SentOk n (a.handle parse render s) ∧
      ∀ auth ∈ a.auth, StopsWhatItRemoves n a.env auth s.fresh a.request) →
        requestStep parse render s a = some t → Agrees parse n t := by
    rintro s a t hs ⟨hsent, hstops⟩ ht
    obtain rfl := Option.some.inj ht
    exact hs.handle hsent hstops
  exact run_invariant hstep hstart hrequests hrun

end Runs

/-! ## The deletion of a client -/

/-- A batch opens port 2022 of node 1 for client 5. -/
def openPort : Arrival := ⟨calmEnv, some ⟨1, "ann", true⟩, .proxy (.batchCreate (tcpBatch [2022]))⟩

def closePort : Arrival := ⟨calmEnv, some ⟨1, "ann", true⟩, .proxy (.delete 1)⟩

def removeClient : Arrival := ⟨calmEnv, some ⟨1, "ann", true⟩, .deleteClient 5⟩

def openNode : Deployment := openPort.handle noUrls (fun _ ↦ "") sharedNode

theorem agrees_sharedNode : Agrees noUrls 1 sharedNode :=
  ⟨.new, rfl, fun id c e ↦ Node.ProxyListenerManager.not_owns_new c id e⟩

theorem sentOk_openNode : SentOk 1 openNode := by decide +kernel

theorem agrees_of_run_closePort :
    Agrees noUrls 1 (closePort.handle noUrls (fun _ ↦ "") openNode) := by
  have hclosed : SentOk 1 (closePort.handle noUrls (fun _ ↦ "") openNode) := by decide +kernel
  refine @agrees_of_run _ _ _ _ _ [openPort, closePort] agrees_sharedNode ?_ rfl
  refine .cons ⟨sentOk_openNode, fun auth _ _ _ ↦ rollsBack_of_deletes fun _ ↦ rfl⟩ rfl ?_
  exact .cons ⟨hclosed, fun auth _ proxy _ _ ↦ rfl⟩ rfl (within_nil _)

/-- The port stays open when the client is deleted. -/
theorem not_agrees_removeClient :
    ¬ ∀ parse render n d arrivals d', Agrees parse n d →
      Within (requestStep parse render) (fun d a ↦ SentOk n (a.handle parse render d)) d arrivals →
        run (requestStep parse render) d arrivals = some d' → Agrees parse n d' := by
  intro h
  have hremoved : SentOk 1 (removeClient.handle noUrls (fun _ ↦ "") openNode) := by decide +kernel
  have hserved : (removeClient.handle noUrls (fun _ ↦ "") openNode).db.served 1 1 = none := by
    decide +kernel
  have hopen : ∃ m, (removeClient.handle noUrls (fun _ ↦ "") openNode).nodes 1 = some m ∧
      ((m.clientListeners "5").lookup 1).isSome := by
    refine ⟨_, rfl, ?_⟩
    decide +kernel
  have hwithin : Within (requestStep noUrls fun _ ↦ "")
      (fun d a ↦ SentOk 1 (a.handle noUrls (fun _ ↦ "") d)) sharedNode [openPort, removeClient] :=
    .cons sentOk_openNode rfl (.cons hremoved rfl (within_nil _))
  have hagrees : Agrees noUrls 1 (removeClient.handle noUrls (fun _ ↦ "") openNode) :=
    h noUrls (fun _ ↦ "") 1 sharedNode [openPort, removeClient] _ agrees_sharedNode hwithin rfl
  obtain ⟨m, hm, hserves⟩ := hagrees
  obtain ⟨m', hm', hlookup⟩ := hopen
  obtain rfl := Option.some.inj (hm.symm.trans hm')
  obtain ⟨task, htask⟩ := Option.isSome_iff_exists.mp hlookup
  have hnone := hserves 1
  rw [hserved] at hnone
  exact hnone "5" (.listener task) htask

end Oxiproxy.Controller
