import Oxiproxy.Controller.ProxyChecks

/-!
# Who writes which proxies

A user who is not an administrator writes only rows of its own, unless it creates
several ports at once: that handler compares the owner of the client only for
dedicated nodes.
-/

namespace Oxiproxy.Controller

open Deployment

/-- The proxies of a group are bound to one client. -/
def GroupsShareClient (db : Db) : Prop :=
  ∀ p ∈ db.proxies.rows, ∀ q ∈ db.proxies.rows, ∀ groupId, p.groupId = some groupId →
    q.groupId = some groupId → ∃ clientId, p.clientId = some clientId ∧ q.clientId = some clientId

/-- The client id names a client of the user. -/
def OwnsClient (db : Db) (auth : AuthUser) (clientId : String) : Prop :=
  ∃ id client, parseI64 clientId = some id ∧ db.clients.find id = some client ∧
    client.userId = some auth.id

/-- The database takes the first row of a batch. -/
def FirstAccepted (env : HandlerEnv) (d : Deployment) (req : BatchCreateProxyRequest) : Prop :=
  ∃ row ∈ (batchRows env req).head?, (d.insertProxy env row).2.toBool = true

section Ownership

variable {parse : UrlParser} {render : Url → String} {env : HandlerEnv} {auth : AuthUser}
  {d d' : Deployment} {db : Db}

theorem Proxy.BelongsTo.congr {p q : Proxy} (hp : p.BelongsTo db auth)
    (hclient : q.clientId = p.clientId) (huser : q.userId = p.userId) : q.BelongsTo db auth := by
  unfold Proxy.BelongsTo at hp ⊢
  rwa [hclient, huser]

theorem Proxy.BelongsTo.of_place {p q : Proxy} (hp : p.BelongsTo db auth)
    (hplace : q.place = p.place) : q.BelongsTo db auth := by
  simp only [Proxy.place, Prod.mk.injEq] at hplace
  exact hp.congr hplace.2.1 hplace.2.2.1

theorem batchRows_clientId {req : BatchCreateProxyRequest} {row : Proxy}
    (hrow : row ∈ batchRows env req) : row.clientId = some req.clientId := by
  obtain ⟨port, -, rfl⟩ := List.mem_map.mp hrow
  rfl

theorem addedRows_clientId {groupId : String} {template row : Proxy}
    {req : AddPortsToGroupRequest} (hrow : row ∈ addedRows env groupId template req) :
    row.clientId = some (template.clientId.getD "") := by
  obtain ⟨port, -, rfl⟩ := List.mem_map.mp hrow
  rfl

/-- All rows written so far belong to the user. -/
structure OwnWrites (db : Db) (auth : AuthUser) (d : Deployment) : Prop where
  clients : d.db.clients = db.clients
  written : ∀ row ∈ d.written, row.BelongsTo db auth

/-- The row with the id belongs to the user, if there is one. -/
def OwnRow (db : Db) (auth : AuthUser) (d : Deployment) (id : ℤ) : Prop :=
  ∀ row, d.db.proxies.find id = some row → row.BelongsTo db auth

theorem OwnWrites.append (hd : OwnWrites db auth d) (hclients : d'.db.clients = d.db.clients)
    {rows : List Proxy} (hwritten : d'.written = d.written ++ rows)
    (hrows : ∀ row ∈ rows, row.BelongsTo db auth) : OwnWrites db auth d' := by
  refine ⟨hclients.trans hd.clients, fun row hrow ↦ ?_⟩
  rw [hwritten] at hrow
  rcases List.mem_append.mp hrow with hrow | hrow
  · exact hd.written row hrow
  · exact hrows row hrow

theorem ownWrites_rules (db : Db) (auth : AuthUser) (env : HandlerEnv) :
    Rules env (OwnWrites db auth) (OwnRow db auth) (fun row ↦ row.BelongsTo db auth)
      (fun _ ↦ True) where
  insert {d d' row result} hd hrow h := by
    rcases insertProxy_cases h with ⟨e, rfl, rfl⟩ | ⟨proxy, hproxy, rfl, -, -, hfresh, rfl⟩
    · exact ⟨hd, fun _ hid ↦ hid, fun _ h ↦ by cases h⟩
    · have howner : proxy.BelongsTo db auth := hrow.congr (by rw [hproxy]) (by rw [hproxy])
      have hrows : ∀ row ∈ [proxy], row.BelongsTo db auth := by
        intro row hrow
        rwa [List.mem_singleton.mp hrow]
      refine ⟨hd.append rfl rfl hrows, fun id hid found hfound ↦ ?_,
        fun p hp found hfound ↦ ?_⟩
      · rw [Table.find_insert] at hfound
        split_ifs at hfound
        · cases hfound
          exact howner
        · exact hid found hfound
      · cases hp
        have hself : (d.db.proxies.insert proxy hfresh).find (key proxy) = some found := hfound
        rw [Table.find_insert, if_pos rfl] at hself
        cases hself
        exact howner
  update {d d' id active result} hd hid _ h := by
    rcases updateProxy_cases h with ⟨e, rfl, rfl⟩ | ⟨row, hrow, rfl, -, rfl⟩
    · exact ⟨hd, fun _ hj ↦ hj⟩
    · have hrows : ∀ old ∈ [row], old.BelongsTo db auth := by
        intro old hold
        rw [List.mem_singleton.mp hold]
        exact hid row hrow
      refine ⟨hd.append rfl rfl hrows, fun j hj found hfound ↦ ?_⟩
      have hmodified : (d.db.proxies.modify id active.set active.key_set).find j =
          some found := hfound
      rw [Table.find_modify] at hmodified
      split_ifs at hmodified
      · obtain ⟨old, hold, rfl⟩ := Option.map_eq_some_iff.mp hmodified
        exact (hj old hold).of_place (active.place_set old)
      · exact hj found hmodified
  delete {d d' id result} hd hid h := by
    rcases deleteProxy_cases h with ⟨e, -, rfl, rfl⟩ | ⟨rfl, rfl⟩
    · exact ⟨hd, fun _ hj ↦ hj⟩
    · refine ⟨hd.append rfl rfl fun row hrow ↦ hid row (Option.mem_toList.mp hrow),
        fun j hj found hfound ↦ ?_⟩
      simp only [Db.deleteProxies, Table.find_filter, Option.filter_eq_some_iff] at hfound
      exact hj found hfound.1
  command {d d'} hd h := by
    refine ⟨⟨by rw [h.db, hd.clients], by rw [h.written]; exact hd.written⟩, fun id hid found hfound ↦ ?_⟩
    rw [h.db] at hfound
    exact hid found hfound

theorem ownRow_group (hadmin : auth.isAdmin = false) (hgroups : GroupsShareClient d.db)
    (groupId : String) : Rules.MineInGroup (OwnRow d.db auth) env auth d groupId := by
  intro first rest hverify p hp row hrow
  obtain ⟨hrows, hverify⟩ := verifyProxyGroupOwnership_ok hverify
  have howner := verifyProxyOwnership_ok hadmin hverify
  have hgroup : ∀ q ∈ first :: rest, q ∈ d.db.proxies.rows ∧ q.groupId = some groupId := by
    intro q hq
    rw [← hrows] at hq
    obtain ⟨hq, hgroup⟩ := List.mem_filter.mp hq
    exact ⟨hq, beq_iff_eq.mp hgroup⟩
  obtain ⟨hpmem, hpgroup⟩ := hgroup p hp
  obtain ⟨hfmem, hfgroup⟩ := hgroup first List.mem_cons_self
  have hfind : d.db.proxies.find p.id = some p := Table.mem_iff_find.mp hpmem
  obtain rfl := Option.some.inj (hfind.symm.trans hrow)
  obtain ⟨clientId, hpclient, hfclient⟩ := hgroups p hpmem first hfmem groupId hpgroup hfgroup
  unfold Proxy.BelongsTo at howner ⊢
  rw [hpclient]
  rwa [hfclient] at howner

/-- Rows that have been written stay in the record. -/
theorem written_rules (env : HandlerEnv) (row : Proxy) :
    Rules env (fun d ↦ row ∈ d.written) (fun _ _ ↦ True) (fun _ ↦ True) (fun _ ↦ True) where
  insert hd _ h := by
    rcases insertProxy_cases h with ⟨e, rfl, rfl⟩ | ⟨proxy, -, rfl, -, -, hfresh, rfl⟩
    · exact ⟨hd, fun _ _ ↦ trivial, fun _ _ ↦ trivial⟩
    · exact ⟨List.mem_append_left _ hd, fun _ _ ↦ trivial, fun _ _ ↦ trivial⟩
  update hd _ _ h := by
    rcases updateProxy_cases h with ⟨e, rfl, rfl⟩ | ⟨old, -, rfl, -, rfl⟩
    · exact ⟨hd, fun _ _ ↦ trivial⟩
    · exact ⟨List.mem_append_left _ hd, fun _ _ ↦ trivial⟩
  delete hd _ h := by
    rcases deleteProxy_cases h with ⟨e, -, rfl, rfl⟩ | ⟨rfl, rfl⟩
    · exact ⟨hd, fun _ _ ↦ trivial⟩
    · exact ⟨List.mem_append_left _ hd, fun _ _ ↦ trivial⟩
  command hd h := ⟨by rw [h.written]; exact hd, fun _ _ ↦ trivial⟩

variable (parse env) in
/-- A batch whose first row is refused writes nothing; otherwise it has written
a row of its client. -/
theorem createEach_written (clientId startError : String) (rows : List Proxy)
    (hd : d.written = []) :
    (∀ row ∈ rows.head?, (d.insertProxy env row).2.toBool = false) ∧
        (createEach parse env clientId startError d [] rows).1.written = [] ∨
      ∃ row ∈ rows.head?, (d.insertProxy env row).2.toBool = true ∧
        ∃ proxy ∈ (createEach parse env clientId startError d [] rows).1.written,
          proxy.clientId = row.clientId := by
  cases rows with
  | nil => exact .inl ⟨by simp, hd⟩
  | cons row rows =>
      unfold createEach
      cases hinsert : d.insertProxy env row with
      | mk d₁ result =>
          rcases insertProxy_cases hinsert with ⟨e, rfl, rfl⟩ | ⟨proxy, hproxy, rfl, -, -, hfresh, rfl⟩
          · refine .inl ⟨?_, hd⟩
            rintro row' hrow'
            obtain rfl := Option.some.inj hrow'
            rw [hinsert]
            rfl
          · refine .inr ⟨row, rfl, by rw [hinsert]; rfl, proxy, ?_, by rw [hproxy]⟩
            have hkeep := written_rules env proxy
            dsimp only
            split
            · rename_i d₂ hstart
              refine hkeep.createEach Prod.mk.eta.symm ?_ (fun _ _ ↦ trivial) fun _ _ ↦ trivial
              rw [(startProxy_sameData hstart).written]
              exact List.mem_append_right _ (List.mem_singleton_self proxy)
            · rename_i d₂ e hstart
              refine (hkeep.delete (hkeep.deleteEach clientId ?_ fun _ _ ↦ trivial).1 trivial
                Prod.mk.eta.symm).1
              rw [(startProxy_sameData hstart).written]
              exact List.mem_append_right _ (List.mem_singleton_self proxy)

end Ownership

/-- A user's request writes only rows of the user exactly if it is no batch that
passes its checks, and whose first row is taken, for a client of someone else. -/
theorem writes_own_iff (parse : UrlParser) (render : Url → String) (env : HandlerEnv)
    (auth : AuthUser) (hadmin : auth.isAdmin = false) (d : Deployment)
    (hgroups : GroupsShareClient d.db) (request : ProxyRequest) :
    (∀ row ∈ (handle parse render env (some auth) d (.proxy request)).1.written,
        row.BelongsTo d.db auth) ↔
      ∀ req, request = .batchCreate req →
        batchCreateChecks env { d with commands := [], written := [] } auth req = .ok () →
          FirstAccepted env { d with commands := [], written := [] } req →
            OwnsClient d.db auth req.clientId := by
  have hrules := ownWrites_rules d.db auth env
  generalize hd₀ : ({ d with commands := [], written := [] } : Deployment) = d₀
  have hdb : d₀.db = d.db := by rw [← hd₀]
  have hwritten : d₀.written = [] := by rw [← hd₀]
  have hstart : OwnWrites d.db auth d₀ := ⟨by rw [hdb], by simp [hwritten]⟩
  have hhandle : (handle parse render env (some auth) d (.proxy request)).1 =
      (handleProxy parse render env auth d₀ request).1 := by rw [← hd₀]; rfl
  have hgroup : ∀ groupId, Rules.MineInGroup (OwnRow d.db auth) env auth d₀ groupId := by
    intro groupId
    rw [← hdb]
    exact ownRow_group hadmin (by rw [hdb]; exact hgroups) groupId
  rw [hhandle]
  cases request with
  | batchCreate req =>
      constructor
      · rintro hown req' heq hchecks ⟨row, hrow, haccepted⟩
        obtain rfl := ProxyRequest.batchCreate.inj heq
        simp only [handleProxy, answer, batchCreateProxies, hchecks] at hown
        rcases createEach_written parse env req.clientId " 启动代理监听器失败: "
            (batchRows env req) hwritten with
          ⟨hrefused, -⟩ | ⟨row', hrow', -, proxy, hproxy, hclient⟩
        · rw [hrefused row hrow] at haccepted
          cases haccepted
        · have howner := hown proxy hproxy
          have hmem := List.mem_of_mem_head? hrow'
          rw [batchRows_clientId hmem] at hclient
          unfold Proxy.BelongsTo at howner
          rw [hclient] at howner
          exact howner
      · intro hcondition
        simp only [handleProxy, answer, batchCreateProxies]
        split
        · simp [hwritten]
        · rename_i u hchecks
          have hcondition := hcondition req rfl hchecks
          rcases createEach_written parse env req.clientId " 启动代理监听器失败: "
              (batchRows env req) hwritten with
            ⟨-, hnone⟩ | ⟨row', hrow', haccepted, -⟩
          · simp [hnone]
          · have howns := hcondition ⟨row', hrow', haccepted⟩
            refine (hrules.createEach Prod.mk.eta.symm hstart (by simp) fun row hrow ↦ ?_).written
            unfold Proxy.BelongsTo
            rw [batchRows_clientId hrow]
            exact howns
  | create req =>
      refine iff_of_true (hrules.createProxy hstart fun row hchecks ↦ ?_).written nofun
      have hallowed := createProxyChecks_ok hchecks
      unfold Proxy.BelongsTo
      rcases hallowed.owner with ⟨hnone, huser⟩ | ⟨clientId, id, client, hclientId, hid, hfind, howner⟩
      · rw [hnone]
        exact huser
      · rw [hclientId]
        exact ⟨id, client, hid, by rw [← hdb]; exact hfind, howner hadmin⟩
  | update id req =>
      refine iff_of_true (hrules.updateProxy hstart fun plan hchecks ↦ ?_).written nofun
      have hallowed := updateProxyChecks_ok hchecks
      refine ⟨fun row hrow ↦ ?_, Table.key_of_find hallowed.found, trivial, trivial⟩
      obtain rfl := Option.some.inj (hallowed.found.symm.trans hrow)
      rw [← hdb]
      exact hallowed.owner hadmin
  | delete id =>
      refine iff_of_true (hrules.deleteProxy hstart fun proxy hchecks row hrow ↦ ?_).written nofun
      obtain ⟨hfound, howner⟩ := deleteProxyChecks_ok hchecks
      obtain rfl := Option.some.inj (hfound.symm.trans hrow)
      rw [← hdb]
      exact howner hadmin
  | toggleGroup groupId enabled =>
      exact iff_of_true (hrules.toggleProxyGroup hstart (hgroup groupId) trivial).written nofun
  | deleteGroup groupId =>
      exact iff_of_true (hrules.deleteProxyGroup hstart (hgroup groupId)).written nofun
  | updateGroup groupId req =>
      exact iff_of_true (hrules.updateProxyGroup hstart (hgroup groupId) fun _ ↦ trivial).written
        nofun
  | addPorts groupId req =>
      refine iff_of_true (hrules.addPortsToProxyGroup hstart fun template hchecks row hrow ↦ ?_).written
        nofun
      obtain ⟨hmem, hgroupId, howner, -⟩ := addPortsChecks_ok hchecks
      have howner := howner hadmin
      rw [hdb] at hmem howner
      obtain ⟨clientId, hclient, -⟩ := hgroups template hmem template hmem groupId hgroupId hgroupId
      unfold Proxy.BelongsTo at howner ⊢
      rw [hclient] at howner
      rw [addedRows_clientId hrow, hclient]
      exact howner

/-! ## A batch for a client of another user -/

/-- Client 5 of user 2, on a shared node. -/
def sharedNode : Deployment where
  db := {
    users := twoUsers
    clients := ⟨[{ (default : Client) with id := 5, userId := some 2 }], by decide⟩
    nodes := ⟨[{ (default : Node) with id := 1, nodeType := "shared" }], by decide⟩
    proxies := .empty
    trafficDaily := .empty
    userSubscriptions := .empty }
  userNodes := []
  nodes := Function.update (fun _ ↦ none) 1 (some .new)
  commands := []
  written := []

/-- Nothing fails. -/
def calmEnv : HandlerEnv where
  now := default
  newUuid := "8b2f5d1c-group"
  newId n := n + 1
  newId_pos n := by omega
  queries _ := none
  writes _ := none
  delivery _ := .answered fun _ _ ↦ .ok ()
  fetch _ := none

def noUrls : UrlParser := fun _ ↦ .error "relative URL without a base"

def tcpBatch (remotePorts : List UInt16) : BatchCreateProxyRequest where
  clientId := "5"
  name := "ssh"
  proxyType := "tcp"
  localIp := "127.0.0.1"
  localPorts := [22]
  remotePorts := remotePorts
  nodeId := some 1

theorem groupsShareClient_sharedNode : GroupsShareClient sharedNode.db :=
  fun _ hp ↦ (List.not_mem_nil hp).elim

/-- A port of a group of client 5. -/
def groupPort (id : ℤ) (port : UInt16) : Proxy :=
  { (default : Proxy) with
    id := id, clientId := some "5", groupId := some "ssh", proxyType := "tcp"
    localPort := port, remotePort := port, enabled := true, nodeId := some 1 }

def sharedGroup : Deployment :=
  { sharedNode with
    db := { sharedNode.db with proxies := ⟨[groupPort 11 2022, groupPort 12 2023], by decide⟩ } }

/-- The owner of the client disables the group, or adds a batch. -/
theorem writes_own_iff_toggleGroup :
    GroupsShareClient sharedGroup.db ∧
      (let d := (handle noUrls (fun _ ↦ "") calmEnv (some ⟨2, "bob", false⟩) sharedGroup
          (.proxy (.toggleGroup "ssh" false))).1
       d.written.map (·.id) = [11, 12] ∧ d.db.proxies.rows.map (·.enabled) = [false, false] ∧
        ∀ row ∈ d.written, row.BelongsTo sharedGroup.db ⟨2, "bob", false⟩) ∧
      let d := (handle noUrls (fun _ ↦ "") calmEnv (some ⟨2, "bob", false⟩) sharedGroup
        (.proxy (.batchCreate (tcpBatch [2024])))).1
      d.written.map (·.remotePort) = [2024] ∧
        ∀ row ∈ d.written, row.BelongsTo sharedGroup.db ⟨2, "bob", false⟩ := by
  have hgroups : GroupsShareClient sharedGroup.db := by
    have hclient : ∀ p ∈ sharedGroup.db.proxies.rows, p.clientId = some "5" := by decide
    exact fun p hp q hq _ _ _ ↦ ⟨"5", hclient p hp, hclient q hq⟩
  have howns : OwnsClient sharedGroup.db ⟨2, "bob", false⟩ "5" :=
    ⟨5, { (default : Client) with id := 5, userId := some 2 }, by decide +kernel,
      by decide +kernel, rfl⟩
  have hiff := writes_own_iff noUrls (fun _ ↦ "") calmEnv ⟨2, "bob", false⟩ rfl sharedGroup hgroups
  refine ⟨hgroups, ⟨by decide +kernel, by decide +kernel,
    (hiff (.toggleGroup "ssh" false)).mpr fun _ h ↦ by cases h⟩, by decide +kernel,
    (hiff (.batchCreate (tcpBatch [2024]))).mpr fun req h _ _ ↦ ?_⟩
  obtain rfl := ProxyRequest.batchCreate.inj h
  exact howns

theorem not_writes_own_batch :
    GroupsShareClient sharedNode.db ∧
      ∃ row ∈ (handle noUrls (fun _ ↦ "") calmEnv (some ⟨1, "ann", false⟩) sharedNode
        (.proxy (.batchCreate (tcpBatch [2022])))).1.written,
          ¬ row.BelongsTo sharedNode.db ⟨1, "ann", false⟩ := by
  have hwritten : ∃ row ∈ (handle noUrls (fun _ ↦ "") calmEnv (some ⟨1, "ann", false⟩) sharedNode
      (.proxy (.batchCreate (tcpBatch [2022])))).1.written, row.clientId = some "5" := by
    decide +kernel
  obtain ⟨row, hrow, hclient⟩ := hwritten
  refine ⟨groupsShareClient_sharedNode, row, hrow, fun howner ↦ ?_⟩
  unfold Proxy.BelongsTo at howner
  rw [hclient] at howner
  obtain ⟨id, client, hid, hfind, huser⟩ := howner
  have hfive : parseI64 "5" = some 5 := by decide +kernel
  obtain rfl := Option.some.inj (hfive.symm.trans hid)
  have hother : (sharedNode.db.clients.find 5).map (·.userId) = some (some 2) := by decide +kernel
  rw [hfind, Option.map_some, huser] at hother
  simp at hother

end Oxiproxy.Controller
