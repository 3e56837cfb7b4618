import Oxiproxy.Controller.ProxyOwnership

/-!
# Allowed port ranges

The proxies of a user stay inside the port ranges of the user and of their
nodes, unless a proxy of a client is updated: that handler compares a new port
with the range of the node only.
-/

namespace Oxiproxy.Controller

open Deployment

def User.auth (user : User) : AuthUser := ⟨user.id, user.username, user.isAdmin⟩

/-- The port of a proxy is one that its user and its node allow. -/
def PortFits (db : Db) (p : Proxy) : Prop :=
  ∀ user ∈ db.users.rows, user.isAdmin = false → p.BelongsTo db user.auth →
    PortAllowed user.allowedPortRange p.remotePort ∧
      ∀ nodeId node, p.nodeId = some nodeId → db.nodes.find nodeId = some node →
        PortAllowed node.allowedPortRange p.remotePort

def RangesKept (db : Db) : Prop := ∀ p ∈ db.proxies.rows, PortFits db p

/-- An update that moves a client's proxy to a port leaves it in the user's range. -/
def UpdateInRange (db : Db) (auth : AuthUser) : ProxyRequest → Prop
  | .update id req => ∀ row user, db.proxies.find id = some row → row.clientId.isSome = true →
      db.users.find auth.id = some user → user.isAdmin = false →
        PortAllowed user.allowedPortRange (req.remotePort.getD row.remotePort)
  | _ => True

section Ranges

variable {parse : UrlParser} {render : Url → String} {env : HandlerEnv} {auth : AuthUser}
  {d d' : Deployment} {db : Db} {p q : Proxy}

theorem Proxy.BelongsTo.user_unique {a b : AuthUser} (ha : p.BelongsTo db a) (hb : p.BelongsTo db b) :
    a.id = b.id := by
  unfold Proxy.BelongsTo at ha hb
  cases hbound : p.clientId with
  | none =>
    rw [hbound] at ha hb
    exact Option.some.inj (ha.symm.trans hb)
  | some clientId =>
    rw [hbound] at ha hb
    obtain ⟨i, client, hi, hclient, howner⟩ := ha
    obtain ⟨j, other, hj, hother, howner'⟩ := hb
    obtain rfl := Option.some.inj (hi.symm.trans hj)
    obtain rfl := Option.some.inj (hclient.symm.trans hother)
    exact Option.some.inj (howner.symm.trans howner')

theorem Proxy.BelongsTo.of_clients {db' : Db} (hp : p.BelongsTo db auth)
    (hclients : db'.clients = db.clients) : p.BelongsTo db' auth := by
  unfold Proxy.BelongsTo at hp ⊢
  rwa [hclients]

theorem PortFits.congr (hp : PortFits db p) (hclient : q.clientId = p.clientId)
    (huser : q.userId = p.userId) (hnode : q.nodeId = p.nodeId)
    (hport : q.remotePort = p.remotePort) : PortFits db q := by
  intro user huser' hadmin hbelongs
  obtain ⟨hrange, hrange'⟩ := hp user huser' hadmin (hbelongs.congr hclient.symm huser.symm)
  rw [hport, hnode]
  exact ⟨hrange, hrange'⟩

/-- A row whose user and node have allowed its port. -/
theorem portFits_of_limits {owner : AuthUser} (howner : p.BelongsTo db owner)
    (huser : (validateUserPortLimit db owner.id p.remotePort).1 = true)
    (hnode : ∀ nodeId, p.nodeId = some nodeId →
      validateNodeProxyLimitExcluding db nodeId p.remotePort 0 = .ok ()) : PortFits db p := by
  intro user huser' _ hbelongs
  obtain ⟨found, hfound, hallowed, -⟩ := validateUserPortLimit_ok huser
  have hid : user.auth.id = owner.id := hbelongs.user_unique howner
  have hsame : db.users.find owner.id = some user := by
    rw [← hid]
    exact Table.mem_iff_find.mp huser'
  obtain rfl := Option.some.inj (hfound.symm.trans hsame)
  refine ⟨hallowed, fun nodeId node hnodeId hnode' ↦ ?_⟩
  obtain ⟨checked, hchecked, hallowed', -⟩ := validateNodeProxyLimitExcluding_ok (hnode nodeId hnodeId)
  obtain rfl := Option.some.inj (hchecked.symm.trans hnode')
  exact hallowed'

theorem CreateAllowed.portFits (h : CreateAllowed d auth p) (hadmin : auth.isAdmin = false) :
    PortFits d.db p := by
  have howner : p.BelongsTo d.db auth := by
    unfold Proxy.BelongsTo
    rcases h.owner with ⟨hnone, huser⟩ | ⟨clientId, id, client, hclientId, hid, hfind, howner⟩
    · rw [hnone]
      exact huser
    · rw [hclientId]
      exact ⟨id, client, hid, hfind, howner hadmin⟩
  exact portFits_of_limits howner (h.userLimit hadmin) h.nodeLimit

theorem PortsAllowed.portFits {clientId : String} {nodeId : Option ℤ} {remotePorts : List UInt16}
    {client : Client} (h : PortsAllowed d auth clientId nodeId remotePorts client)
    (hadmin : auth.isAdmin = false) (hclient : p.clientId = some clientId) (hnode : p.nodeId = nodeId)
    (hport : p.remotePort ∈ remotePorts) : PortFits d.db p := by
  intro user huser huserAdmin hbelongs
  obtain ⟨id, hid, hfind⟩ := h.parsed
  have howner : client.userId = some user.auth.id := by
    unfold Proxy.BelongsTo at hbelongs
    rw [hclient] at hbelongs
    obtain ⟨id', client', hid', hfind', howner⟩ := hbelongs
    obtain rfl := Option.some.inj (hid.symm.trans hid')
    obtain rfl := Option.some.inj (hfind.symm.trans hfind')
    exact howner
  refine portFits_of_limits hbelongs (h.userLimit hadmin _ howner _ hport) (fun nodeId hnodeId ↦ ?_)
    user huser huserAdmin hbelongs
  exact h.nodeLimit nodeId (hnode.symm.trans hnodeId) _ hport

/-- Users, clients and nodes are those of the database, and all ports fit. -/
structure Fitting (db : Db) (d : Deployment) : Prop where
  users : d.db.users = db.users
  clients : d.db.clients = db.clients
  nodes : d.db.nodes = db.nodes
  fits : ∀ p ∈ d.db.proxies.rows, PortFits db p

theorem Fitting.rangesKept (hd : Fitting db d) : RangesKept d.db := by
  intro p hp user huser hadmin hbelongs
  rw [hd.users] at huser
  rw [hd.nodes]
  exact hd.fits p hp user huser hadmin (hbelongs.of_clients hd.clients.symm)

/-- Rows that are inserted fit, and updates leave ports alone. -/
theorem fitting_rules (db : Db) (env : HandlerEnv) :
    Rules env (Fitting db) (fun _ _ ↦ True) (PortFits db)
      (fun active ↦ ∀ p, (active.set p).remotePort = p.remotePort) where
  insert {d d' row result} hd hrow h := by
    rcases insertProxy_cases h with ⟨e, rfl, rfl⟩ | ⟨proxy, hproxy, rfl, -, -, hfresh, rfl⟩
    · exact ⟨hd, fun _ _ ↦ trivial, fun _ _ ↦ trivial⟩
    · have hfits : PortFits db proxy :=
        hrow.congr (by rw [hproxy]) (by rw [hproxy]) (by rw [hproxy]) (by rw [hproxy])
      refine ⟨⟨hd.users, hd.clients, hd.nodes, fun p hp ↦ ?_⟩, fun _ _ ↦ trivial, fun _ _ ↦ trivial⟩
      rcases List.mem_append.mp hp with hp | hp
      · exact hd.fits p hp
      · rwa [List.mem_singleton.mp hp]
  update {d d' id active result} hd _ hport h := by
    rcases updateProxy_cases h with ⟨e, rfl, rfl⟩ | ⟨row, hrow, rfl, -, rfl⟩
    · exact ⟨hd, fun _ _ ↦ trivial⟩
    · refine ⟨⟨hd.users, hd.clients, hd.nodes, fun p hp ↦ ?_⟩, fun _ _ ↦ trivial⟩
      obtain ⟨old, hold, rfl⟩ := List.mem_map.mp hp
      have hplace := active.place_set old
      simp only [Proxy.place, Prod.mk.injEq] at hplace
      split_ifs
      · exact (hd.fits old hold).congr hplace.2.1 hplace.2.2.1 hplace.2.2.2.1 (hport old)
      · exact hd.fits old hold
  delete {d d' id result} hd _ h := by
    rcases deleteProxy_cases h with ⟨e, -, rfl, rfl⟩ | ⟨rfl, rfl⟩
    · exact ⟨hd, fun _ _ ↦ trivial⟩
    · exact ⟨⟨hd.users, hd.clients, hd.nodes, fun p hp ↦ hd.fits p (List.mem_filter.mp hp).1⟩,
        fun _ _ ↦ trivial⟩
  command {d d'} hd h := by
    refine ⟨⟨?_, ?_, ?_, ?_⟩, fun _ _ ↦ trivial⟩ <;> rw [h.db]
    exacts [hd.users, hd.clients, hd.nodes, hd.fits]

theorem batchRows_port {req : BatchCreateProxyRequest} {row : Proxy}
    (hrow : row ∈ batchRows env req) :
    row.nodeId = req.nodeId ∧ row.remotePort ∈ req.remotePorts := by
  obtain ⟨⟨port, i⟩, hport, rfl⟩ := List.mem_map.mp hrow
  exact ⟨rfl, List.fst_mem_of_mem_zipIdx hport⟩

theorem addedRows_port {groupId : String} {template row : Proxy} {req : AddPortsToGroupRequest}
    (hrow : row ∈ addedRows env groupId template req) :
    row.nodeId = template.nodeId ∧ row.remotePort ∈ req.remotePorts := by
  obtain ⟨⟨port, i⟩, hport, rfl⟩ := List.mem_map.mp hrow
  exact ⟨rfl, List.fst_mem_of_mem_zipIdx hport⟩

/-- An update that succeeds keeps the ranges exactly if the new port is in the
range of the user. -/
theorem updateProxy_ranges {id : ℤ} {req : UpdateProxyRequest} {updated : Proxy}
    (hadmin : auth.isAdmin = false) (hd : RangesKept d.db)
    (h : updateProxy parse render env auth d id req = (d', .ok updated)) :
    RangesKept d'.db ↔ UpdateInRange d.db auth (.update id req) := by
  obtain ⟨plan, d₁, hchecks, hset, hdb⟩ := updateProxy_ok h
  have hallowed := updateProxyChecks_ok hchecks
  have howner := hallowed.owner hadmin
  rcases updateProxy_cases hset with ⟨e, herror, -⟩ | ⟨row, hrow, -, -, rfl⟩
  · cases herror
  · obtain rfl := Option.some.inj (hallowed.found.symm.trans hrow)
    have hid : key plan.original = id := Table.key_of_find hrow
    generalize hactive : plan.active req env.now = active at hdb
    have hport : (active.set plan.original).remotePort =
        req.remotePort.getD plan.original.remotePort := by rw [← hactive]; rfl
    have hplace := active.place_set plan.original
    simp only [Proxy.place, Prod.mk.injEq] at hplace
    obtain ⟨-, hclient, huser, hnode, -⟩ := hplace
    have hmem : active.set plan.original ∈
        (d.db.proxies.modify id active.set active.key_set).rows :=
      List.mem_map.mpr ⟨plan.original, (Table.find_eq_some.mp hrow).1, if_pos hid⟩
    rw [hdb]
    constructor
    · rintro hkept row user hfind - hfound huserAdmin
      obtain rfl := Option.some.inj (hallowed.found.symm.trans hfind)
      have hkey : user.id = auth.id := Table.key_of_find hfound
      have hbelongs : (active.set plan.original).BelongsTo d.db user.auth := by
        have hown : plan.original.BelongsTo d.db user.auth := by
          unfold Proxy.BelongsTo at howner ⊢
          rwa [User.auth, hkey]
        exact hown.congr hclient huser
      have hfits := hkept _ hmem user (Table.find_eq_some.mp hfound).1 huserAdmin hbelongs
      rw [← hport]
      exact hfits.1
    · intro hrange
      have hfits : PortFits d.db (active.set plan.original) := by
        have hold : PortFits d.db plan.original := hd _ (Table.find_eq_some.mp hrow).1
        by_cases hsame : req.remotePort.getD plan.original.remotePort = plan.original.remotePort
        · exact hold.congr hclient huser hnode (hport.trans hsame)
        · intro user huserMem huserAdmin hbelongs
          have hkey : user.auth.id = auth.id := hbelongs.user_unique (howner.congr hclient huser)
          have hfound : d.db.users.find auth.id = some user := by
            rw [← hkey]
            exact Table.mem_iff_find.mp huserMem
          rw [hport, hnode]
          refine ⟨?_, fun nodeId node hnodeId hnode' ↦ ?_⟩
          · cases hbound : plan.original.clientId with
            | some clientId =>
                exact hrange plan.original user hallowed.found (by rw [hbound]; rfl) hfound
                  huserAdmin
            | none =>
                obtain ⟨checked, hchecked, hin⟩ := hallowed.userRange hadmin hbound hsame
                obtain rfl := Option.some.inj (hchecked.symm.trans hfound)
                exact hin
          · obtain ⟨checked, hchecked, hin, -⟩ :=
              validateNodeProxyLimitExcluding_ok (hallowed.nodeLimit hsame nodeId hnodeId)
            obtain rfl := Option.some.inj (hchecked.symm.trans hnode')
            exact hin
      intro p hp
      obtain ⟨old, hold, rfl⟩ := List.mem_map.mp hp
      split_ifs with hkey
      · obtain rfl : old = plan.original := by
          have hfind := Table.mem_iff_find.mp hold
          rw [hkey, hrow] at hfind
          exact (Option.some.inj hfind).symm
        exact hfits
      · exact hd old hold

end Ranges

/-- A request of a user that succeeds keeps all proxies inside the ranges of
their users and nodes exactly if it does not move a client's proxy to a port
outside the user's range. -/
theorem ranges_kept_iff (parse : UrlParser) (render : Url → String) (env : HandlerEnv)
    (auth : AuthUser) (hadmin : auth.isAdmin = false) (d d' : Deployment) (hd : RangesKept d.db)
    (request : ProxyRequest)
    (h : handle parse render env (some auth) d (.proxy request) = (d', .ok ())) :
    RangesKept d'.db ↔ UpdateInRange d.db auth request := by
  generalize hd₀ : ({ d with commands := [], written := [] } : Deployment) = d₀
  have hdb : d₀.db = d.db := by rw [← hd₀]
  have hhandle : handleProxy parse render env auth d₀ request = (d', .ok ()) := by
    rw [← hd₀]
    exact h
  have hd' : d' = (handleProxy parse render env auth d₀ request).1 := by rw [hhandle]
  have hrules := fitting_rules d.db env
  have hfit : Fitting d.db d₀ := ⟨by rw [hdb], by rw [hdb], by rw [hdb], by rw [hdb]; exact hd⟩
  have hmine : ∀ groupId, Rules.MineInGroup (fun _ _ ↦ True) env auth d₀ groupId :=
    fun _ _ _ _ _ _ ↦ trivial
  cases request with
  | update id req =>
      rw [handleProxy, answer, Prod.mk.injEq] at hhandle
      obtain ⟨updated, hok⟩ : ∃ updated,
          (updateProxy parse render env auth d₀ id req).2 = .ok updated := by
        cases hresult : (updateProxy parse render env auth d₀ id req).2 with
        | error e =>
            rw [hresult] at hhandle
            cases hhandle.2
        | ok updated => exact ⟨updated, rfl⟩
      rw [← hdb]
      exact updateProxy_ranges hadmin (by rw [hdb]; exact hd) (Prod.ext hhandle.1 hok)
  | create req =>
      refine iff_of_true (hd' ▸ (hrules.createProxy hfit fun row hchecks ↦ ?_).rangesKept) trivial
      rw [← hdb]
      exact (createProxyChecks_ok hchecks).portFits hadmin
  | batchCreate req =>
      refine iff_of_true (hd' ▸ (hrules.batchCreateProxies hfit fun hchecks row hrow ↦ ?_).rangesKept)
        trivial
      obtain ⟨client, hports⟩ := batchCreateChecks_ok hchecks
      rw [← hdb]
      exact hports.portFits hadmin (batchRows_clientId hrow) (batchRows_port hrow).1
        (batchRows_port hrow).2
  | addPorts groupId req =>
      refine iff_of_true
        (hd' ▸ (hrules.addPortsToProxyGroup hfit fun template hchecks row hrow ↦ ?_).rangesKept) trivial
      obtain ⟨-, -, -, client, hports⟩ := addPortsChecks_ok hchecks
      rw [← hdb]
      exact hports.portFits hadmin (addedRows_clientId hrow) (addedRows_port hrow).1
        (addedRows_port hrow).2
  | delete id =>
      exact iff_of_true (hd' ▸ (hrules.deleteProxy hfit fun _ _ ↦ trivial).rangesKept) trivial
  | toggleGroup groupId enabled =>
      exact iff_of_true (hd' ▸ (hrules.toggleProxyGroup hfit (hmine groupId) fun _ ↦ rfl).rangesKept)
        trivial
  | deleteGroup groupId =>
      exact iff_of_true (hd' ▸ (hrules.deleteProxyGroup hfit (hmine groupId)).rangesKept) trivial
  | updateGroup groupId req =>
      exact iff_of_true
        (hd' ▸ (hrules.updateProxyGroup hfit (hmine groupId) fun _ _ ↦ rfl).rangesKept) trivial

/-! ## A client's proxy that leaves the range of its user -/

theorem eq_ok_of_toBool {ε : Type} {result : Except ε Unit} (h : result.toBool = true) :
    result = .ok () := by
  cases result with
  | error e => cases h
  | ok u => rfl

/-- User 2 may open ports 2000 to 2999 and has opened 2022 for client 5. -/
def rangedUser : Deployment :=
  { sharedNode with
    db := { sharedNode.db with
      users := ⟨[{ (default : User) with id := 2, allowedPortRange := some "2000-2999" }], by decide⟩
      proxies := ⟨[{ (default : Proxy) with
        id := 3, clientId := some "5", proxyType := "tcp", localIp := "127.0.0.1", localPort := 22,
        remotePort := 2022, enabled := true, nodeId := some 1 }], by decide⟩ } }

def moveTo (remotePort : UInt16) : UpdateProxyRequest where
  name := none
  proxyType := none
  domain := none
  upstreamUrl := none
  localIp := none
  localPort := none
  remotePort := some remotePort
  enabled := none

theorem rangesKept_rangedUser : RangesKept rangedUser.db := by
  have hin : (parsePortRanges "2000-2999").toOption.any (isPortInRanges 2022) = true := by
    decide +kernel
  intro p hp user huser _ _
  obtain rfl := List.mem_singleton.mp hp
  obtain rfl := List.mem_singleton.mp huser
  refine ⟨fun allowed hallowed _ ↦ ?_, fun nodeId node hnodeId hnode allowed hallowed ↦ ?_⟩
  · obtain rfl := Option.some.inj hallowed
    exact hin
  · obtain rfl := Option.some.inj hnodeId
    have hrange : (rangedUser.db.nodes.find 1).bind (·.allowedPortRange) = none := by decide +kernel
    rw [hnode, Option.bind_some, hallowed] at hrange
    cases hrange

theorem ranges_kept_iff_move :
    RangesKept (handle noUrls (fun _ ↦ "") calmEnv (some ⟨2, "bob", false⟩) rangedUser
      (.proxy (.update 3 (moveTo 2023)))).1.db := by
  have hok : (handle noUrls (fun _ ↦ "") calmEnv (some ⟨2, "bob", false⟩) rangedUser
      (.proxy (.update 3 (moveTo 2023)))).2.toBool = true := by decide +kernel
  refine (ranges_kept_iff noUrls (fun _ ↦ "") calmEnv ⟨2, "bob", false⟩ rfl rangedUser _
    rangesKept_rangedUser (.update 3 (moveTo 2023)) (Prod.ext rfl (eq_ok_of_toBool hok))).mpr ?_
  intro row user _ _ huser _ allowed hallowed _
  have hrange : (rangedUser.db.users.find 2).bind (·.allowedPortRange) = some "2000-2999" := by
    decide +kernel
  rw [huser, Option.bind_some, hallowed] at hrange
  obtain rfl := Option.some.inj hrange
  have hin : (parsePortRanges "2000-2999").toOption.any (isPortInRanges 2023) = true := by
    decide +kernel
  exact hin

theorem not_ranges_kept_move :
    RangesKept rangedUser.db ∧
      (handle noUrls (fun _ ↦ "") calmEnv (some ⟨2, "bob", false⟩) rangedUser
        (.proxy (.update 3 (moveTo 80)))).2 = .ok () ∧
      ¬ RangesKept (handle noUrls (fun _ ↦ "") calmEnv (some ⟨2, "bob", false⟩) rangedUser
        (.proxy (.update 3 (moveTo 80)))).1.db := by
  refine ⟨rangesKept_rangedUser, eq_ok_of_toBool (by decide +kernel), fun hkept ↦ ?_⟩
  have hmoved : ∃ p ∈ (handle noUrls (fun _ ↦ "") calmEnv (some ⟨2, "bob", false⟩) rangedUser
      (.proxy (.update 3 (moveTo 80)))).1.db.proxies.rows,
        p.clientId = some "5" ∧ p.remotePort = 80 := by decide +kernel
  have hclient : ∃ client, (handle noUrls (fun _ ↦ "") calmEnv (some ⟨2, "bob", false⟩) rangedUser
      (.proxy (.update 3 (moveTo 80)))).1.db.clients.find 5 = some client ∧
        client.userId = some 2 :=
    ⟨{ (default : Client) with id := 5, userId := some 2 }, by decide +kernel, rfl⟩
  have huser : { (default : User) with id := 2, allowedPortRange := some "2000-2999" } ∈
      (handle noUrls (fun _ ↦ "") calmEnv (some ⟨2, "bob", false⟩) rangedUser
        (.proxy (.update 3 (moveTo 80)))).1.db.users.rows := by decide +kernel
  generalize (handle noUrls (fun _ ↦ "") calmEnv (some ⟨2, "bob", false⟩) rangedUser
    (.proxy (.update 3 (moveTo 80)))).1 = d' at hkept hmoved hclient huser
  obtain ⟨p, hp, hbound, hport⟩ := hmoved
  obtain ⟨client, hfind, howner⟩ := hclient
  have hbelongs : p.BelongsTo d'.db (User.auth { (default : User) with
      id := 2, allowedPortRange := some "2000-2999" }) := by
    unfold Proxy.BelongsTo
    rw [hbound]
    exact ⟨5, client, by decide +kernel, hfind, howner⟩
  have hrange := (hkept p hp _ huser rfl hbelongs).1 "2000-2999" rfl (by decide)
  rw [hport] at hrange
  exact absurd hrange (by decide +kernel)

end Oxiproxy.Controller
