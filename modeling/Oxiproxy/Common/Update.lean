import Oxiproxy.Common.Float
import Oxiproxy.Common.Upstream

/-!
# Downloading an update

The updater downloads an archive over one of several routes, each a mirror or the
original address.  What the network answers, the scores of the probes, the disk and
the user at the terminal are arbitrary.
-/

namespace Oxiproxy.Update

/-! ## Routes -/

inductive DownloadSource
  | manual
  | auto
  | direct
  | mirror
  deriving DecidableEq, Repr

structure UpdateOptions where
  source : DownloadSource
  mirror : List String
  deriving DecidableEq, Repr

structure Route where
  name : String
  url : String
  deriving DecidableEq, Repr

inductive DownloadError
  /-- An error with a text of the updater itself. -/
  | bail (message : String)
  /-- An error of a library. -/
  | other (error : String)
  deriving DecidableEq, Repr

def defaultMirror : String := "https://gh-proxy.com"

/-- `trim_end_matches` -/
def trimEndMatches (s : String) (c : Char) : String :=
  String.ofList (s.toList.reverse.dropWhile (· == c)).reverse

namespace UpdateOptions

def validateMirror (parse : UrlParser) (mirror : String) : Except String Unit :=
  match parse mirror with
  | .error e => .error ("镜像必须是完整的 HTTPS URL: " ++ e)
  | .ok url =>
      ensure (url.scheme == "https" && url.hostStr.isSome && url.username.isEmpty &&
        url.password.isNone && url.query.isNone && url.fragment.isNone)
        "镜像必须是无凭据、查询参数和片段的 HTTPS URL 前缀"

def validate (parse : UrlParser) (options : UpdateOptions) : Except String Unit := do
  ensure (options.mirror.length ≤ 8) "最多配置 8 条镜像线路"
  options.mirror.forM (validateMirror parse)

/-- Add the route over a mirror, unless there is one to the same address. -/
def addMirror (original : String) (routes : List Route) (mirror : String) : List Route :=
  let url := trimEndMatches mirror '/' ++ "/" ++ original
  if routes.any (·.url == url) then routes else routes ++ [⟨"镜像 " ++ mirror, url⟩]

def routes (options : UpdateOptions) (original : String) : List Route :=
  let routes := if options.source = .mirror then [] else [⟨"GitHub 直连", original⟩]
  if options.source = .direct then routes
  else
    let mirrors := if options.mirror.isEmpty then [defaultMirror] else options.mirror
    mirrors.foldl (addMirror original) routes

end UpdateOptions

/-! ## One download -/

/-- The answer of a route: its head, the pieces that reading the body gives, and the
error that the reading ends with, if it does not end with the body. -/
structure Answer where
  status : ℕ
  contentType : Option (List UInt8)
  contentLength : Option ℕ
  pieces : List {piece : List UInt8 // piece ≠ []}
  ending : Option String
  deriving DecidableEq

def Answer.body (a : Answer) : List UInt8 := a.pieces.flatMap (·.1)

/-- The content type is a text, of visible characters, that starts with `text/html`. -/
def Answer.isHtml (a : Answer) : Bool :=
  a.contentType.any fun v ↦
    v.all (fun b ↦ (32 ≤ b && b < 127) || b == 9) &&
      "text/html".toByteArray.data.toList.isPrefixOf v

inductive Request
  | probe
  | get
  deriving DecidableEq, Repr

structure Exchange where
  request : Request
  url : String
  answer : Except String Answer

/-- The file at the destination, if there is one, and what has been sent. -/
structure World where
  destination : Option (List UInt8)
  sent : List Exchange

/-- The addresses from which the update has been downloaded so far, or tried to be. -/
def World.tried (w : World) : List String :=
  (w.sent.filter (·.request = .get)).map (·.url)

/-- What a download depends on. -/
structure Env where
  parse : UrlParser
  /-- Whether the client can be built. -/
  builds : Except String Unit
  /-- The answer to a request, which may depend on what was sent before. -/
  net : List Exchange → Request → String → Except String Answer
  /-- The score of a route, 0 if its probe fails. -/
  score : String → F64
  /-- Whether the destination can be created, and a file of some length be written to it. -/
  create : Except String Unit
  fits : ℕ → Bool
  /-- Whether a file at the destination can be removed. -/
  removes : Bool
  isTerminal : Bool

def Env.request (env : Env) (w : World) (request : Request) (url : String) :
    World × Except String Answer :=
  let answer := env.net w.sent request url
  ({ w with sent := w.sent ++ [⟨request, url, answer⟩] }, answer)

/-- Write the pieces of a body to the file; gives the file and the number of bytes. -/
def copyBody (env : Env) (ending : Option String) :
    List {piece : List UInt8 // piece ≠ []} → List UInt8 → ℕ →
      List UInt8 × Except DownloadError ℕ
  | [], file, total =>
      match ending with
      | some e => (file, .error (.other e))
      | none => (file, .ok total)
  | piece :: pieces, file, total =>
      if env.fits (file ++ piece.1).length then
        copyBody env ending pieces (file ++ piece.1) (total + piece.1.length)
      else (file, .error (.other "No space left on device"))

def downloadOne (env : Env) (url : String) (w : World) : World × Except DownloadError Unit :=
  match env.request w .get url with
  | (w, .error e) => (w, .error (.other e))
  | (w, .ok a) =>
      if 400 ≤ a.status && a.status < 600 then (w, .error (.other (toString a.status)))
      else if a.isHtml then (w, .error (.bail "下载线路返回了 HTML 页面"))
      else if a.status ≠ 200 then (w, .error (.bail "下载线路未返回完整文件"))
      else
        match env.create with
        | .error e => (w, .error (.other e))
        | .ok () =>
            match copyBody env a.ending a.pieces [] 0 with
            | (file, .error e) => ({ w with destination := some file }, .error e)
            | (file, .ok total) =>
                ({ w with destination := some file },
                  if total = 0 || a.contentLength.any (· != total) then
                    .error (.bail "下载内容为空或不完整")
                  else .ok ())

/-! ## Several routes -/

/-- `remove_file`, whose result is dropped. -/
def World.removeFile (env : Env) (w : World) : World :=
  { w with destination := if env.removes then none else w.destination }

@[simp] theorem World.sent_removeFile (env : Env) (w : World) : (w.removeFile env).sent = w.sent :=
  rfl

def downloadRoutes (env : Env) : List Route → World → World × Except DownloadError Unit
  | [], w =>
      (w.removeFile env,
        .error (.bail "所有更新下载线路均失败，请检查网络或更换 --mirror（每条线路超时 300 秒）"))
  | route :: routes, w =>
      match downloadOne env route.url w with
      | (w, .ok ()) => (w, .ok ())
      | (w, .error _) => downloadRoutes env routes w

/-- The user at the terminal: the lines that are still to come, each of which may be
an error instead, and the number of writes that go through, if not all of them do. -/
structure Terminal where
  lines : List (Except String String)
  room : Option ℕ
  deriving DecidableEq, Repr

def Terminal.write (t : Terminal) : Except DownloadError Terminal :=
  match t.room with
  | none => .ok t
  | some 0 => .error (.other "Broken pipe")
  | some (n + 1) => .ok { t with room := some n }

def Terminal.writes (t : Terminal) : ℕ → Except DownloadError Terminal
  | 0 => .ok t
  | n + 1 => do (← t.write).writes n

/-- The loop that asks for the number of a route. -/
def askRoute (count : ℕ) : List (Except String String) → Option ℕ →
    Except DownloadError (ℕ × Terminal)
  | lines, room => do
      let t ← Terminal.writes ⟨lines, room⟩ 2
      match lines with
      | [] => .error (.bail "未选择下载线路，更新已取消")
      | .error e :: _ => .error (.other e)
      | .ok line :: rest =>
          if line.isEmpty then .error (.bail "未选择下载线路，更新已取消")
          else
            match parseUnsigned (2 ^ 64) (trim line) with
            | some 0 => .error (.bail "更新已取消")
            | some number =>
                if number ≤ count then .ok (number - 1, ⟨rest, t.room⟩)
                else do
                  let t ← Terminal.write ⟨rest, t.room⟩
                  askRoute count rest t.room
            | none => do
                let t ← Terminal.write ⟨rest, t.room⟩
                askRoute count rest t.room

def selectRoute (routes : List Route) (t : Terminal) : Except DownloadError (ℕ × Terminal) :=
  match routes with
  | [] => .error (.bail "没有可用的下载线路")
  | [_] => .ok (0, t)
  | routes => do
      let t ← t.writes (routes.length + 2)
      askRoute routes.length t.lines t.room

def downloadManually (env : Env) (routes : List Route) (t : Terminal) (w : World) :
    World × Except DownloadError Unit :=
  match selectRoute routes t with
  | .error e => (w, .error e)
  | .ok (index, t) =>
      match routes[index]? with
      | none => (w, .error (.other "index out of bounds"))
      | some route =>
          match t.writes 2 with
          | .error e => (w, .error e)
          | .ok _ =>
              match downloadOne env route.url w with
              | (w, .ok ()) => (w, .ok ())
              | (w, .error _) =>
                  (w.removeFile env, .error (.bail
                    (route.name ++ " 下载失败，请重新运行 update 选择线路（超时 300 秒）")))

/-- Probe all routes. -/
def probeRoutes (env : Env) (routes : List Route) (w : World) : World :=
  routes.foldl (fun w route ↦ (env.request w .probe route.url).1) w

/-- Sort by score, the highest first and equal ones as they come. -/
def rankRoutes (env : Env) (routes : List Route) : List Route :=
  routes.insertionSort fun a b ↦ (env.score b.url).rank ≤ (env.score a.url).rank

def UpdateOptions.download (options : UpdateOptions) (env : Env) (original : String) (t : Terminal)
    (w : World) : World × Except DownloadError Unit :=
  match options.validate env.parse, env.builds with
  | .error e, _ => (w, .error (.bail e))
  | .ok (), .error e => (w, .error (.other e))
  | .ok (), .ok () =>
      let routes := options.routes original
      if options.source ≠ .auto then
        if 1 < routes.length && !env.isTerminal then
          (w, .error (.bail ("手动选择下载线路需要交互式终端；请使用 --source direct，" ++
            "或 --source mirror 指定单个镜像")))
        else downloadManually env routes t w
      else if 1 < routes.length then
        downloadRoutes env (rankRoutes env routes) (probeRoutes env routes w)
      else downloadRoutes env routes w

/-! ## What a download leaves behind -/

/-- The route answered with a whole file, and that is now at the destination. -/
def Exchange.Delivers (e : Exchange) (destination : Option (List UInt8)) : Prop :=
  e.request = .get ∧ ∃ a, e.answer = .ok a ∧ a.status = 200 ∧ a.isHtml = false ∧
    a.ending = none ∧ a.body ≠ [] ∧ (∀ n ∈ a.contentLength, n = a.body.length) ∧
    destination = some a.body

/-- The addresses are tried, one after the other, and the last of them delivers the
file or there is none, if it can be removed. -/
def Tries (env : Env) (w : World) (r : World × Except DownloadError Unit) (urls : List String) :
    Prop :=
  ∃ sent, r.1.sent = w.sent ++ sent ∧ (∀ e ∈ sent, e.request = .get) ∧ sent.map (·.url) = urls ∧
    (r.2 = .ok () → ∃ e ∈ sent, e.Delivers r.1.destination) ∧
    (r.2 ≠ .ok () → urls ≠ [] → env.removes = true → r.1.destination = none)

/-- The user takes the route, and is told so. -/
def Selects (routes : List Route) (t : Terminal) (route : Route) : Prop :=
  ∃ index t' t'', selectRoute routes t = .ok (index, t') ∧ routes[index]? = some route ∧
    t'.writes 2 = .ok t''

/-- The options are valid, and the user can be asked where there is a choice. -/
structure UpdateOptions.Asks (options : UpdateOptions) (env : Env) (original : String) : Prop where
  valid : options.validate env.parse = .ok ()
  builds : env.builds = .ok ()
  terminal : 1 < (options.routes original).length → env.isTerminal = true

section Routes

variable {options : UpdateOptions} {original : String} {routes : List Route}

theorem nodup_addMirror (h : (routes.map (·.url)).Nodup) (mirror : String) :
    ((UpdateOptions.addMirror original routes mirror).map (·.url)).Nodup := by
  unfold UpdateOptions.addMirror
  dsimp only
  split_ifs with hany
  · exact h
  · rw [List.map_append, List.map_singleton, List.nodup_append_comm]
    refine List.nodup_cons.mpr ⟨fun hmem ↦ hany ?_, h⟩
    obtain ⟨route, hroute, hurl⟩ := List.mem_map.mp hmem
    exact List.any_eq_true.mpr ⟨route, hroute, beq_iff_eq.mpr hurl⟩

/-- The routes lead to different addresses. -/
theorem routes_nodup (options : UpdateOptions) (original : String) :
    ((options.routes original).map (·.url)).Nodup := by
  have hloop : ∀ (mirrors : List String) (routes : List Route), (routes.map (·.url)).Nodup →
      ((mirrors.foldl (UpdateOptions.addMirror original) routes).map (·.url)).Nodup := by
    intro mirrors
    induction mirrors with
    | nil => exact fun routes h ↦ h
    | cons mirror mirrors ih => exact fun routes h ↦ ih _ (nodup_addMirror h mirror)
  have hfirst : ((if options.source = .mirror then [] else [⟨"GitHub 直连", original⟩] :
      List Route).map (·.url)).Nodup := by
    split_ifs
    · exact List.nodup_nil
    · exact List.nodup_singleton _
  unfold UpdateOptions.routes
  dsimp only
  by_cases hdirect : options.source = .direct
  · rw [if_pos hdirect]
    exact hfirst
  · rw [if_neg hdirect]
    exact hloop _ _ hfirst

end Routes

section Download

variable {env : Env} {w : World} {routes : List Route} {t : Terminal} {url : String}

theorem copyBody_ok {ending : Option String} {pieces : List {piece : List UInt8 // piece ≠ []}}
    {file file' : List UInt8} {total total' : ℕ}
    (h : copyBody env ending pieces file total = (file', .ok total')) :
    ending = none ∧ file' = file ++ pieces.flatMap (·.1) ∧
      total' = total + (pieces.flatMap (·.1)).length := by
  induction pieces generalizing file total with
  | nil =>
      cases ending with
      | some e => cases h
      | none =>
          cases h
          simp
  | cons piece pieces ih =>
      rw [copyBody] at h
      split at h
      · obtain ⟨hending, hfile, htotal⟩ := ih h
        refine ⟨hending, ?_, ?_⟩
        · rw [hfile, List.flatMap_cons, List.append_assoc]
        · rw [htotal, List.flatMap_cons, List.length_append, Nat.add_assoc]
      · cases h

/-- One route is asked once, and a success means that it delivered. -/
theorem downloadOne_delivers (env : Env) (url : String) (w : World) :
    ∃ answer, (downloadOne env url w).1.sent = w.sent ++ [⟨.get, url, answer⟩] ∧
      ((downloadOne env url w).2 = .ok () →
        Exchange.Delivers ⟨.get, url, answer⟩ (downloadOne env url w).1.destination) := by
  refine ⟨env.net w.sent .get url, ?_⟩
  unfold downloadOne Env.request
  dsimp only
  cases hnet : env.net w.sent .get url with
  | error e => exact ⟨rfl, nofun⟩
  | ok a =>
      dsimp only
      split_ifs with herror hhtml hstatus
      · exact ⟨rfl, nofun⟩
      · exact ⟨rfl, nofun⟩
      · exact ⟨rfl, nofun⟩
      · cases hcreate : env.create with
        | error e => exact ⟨rfl, nofun⟩
        | ok _ =>
            dsimp only
            cases hcopy : copyBody env a.ending a.pieces [] 0 with
            | mk file copied =>
                cases copied with
                | error e => exact ⟨rfl, nofun⟩
                | ok total =>
                    obtain ⟨hending, rfl, rfl⟩ := copyBody_ok hcopy
                    refine ⟨rfl, fun hok ↦ ?_⟩
                    dsimp only at hok ⊢
                    split_ifs at hok with hincomplete
                    rw [List.nil_append, Nat.zero_add] at *
                    simp only [Bool.or_eq_true, decide_eq_true_eq, not_or, List.length_eq_zero_iff]
                      at hincomplete
                    refine ⟨rfl, a, rfl, not_not.mp hstatus, Bool.eq_false_iff.mpr hhtml, hending,
                      hincomplete.1, fun n hn ↦ ?_, rfl⟩
                    rw [Option.mem_def.mp hn, Option.any_some, bne_iff_ne, not_not] at hincomplete
                    exact hincomplete.2

/-- The routes are tried in their order, up to the first that delivers. -/
theorem downloadRoutes_tries (env : Env) (routes : List Route) (w : World) :
    ∃ urls, Tries env w (downloadRoutes env routes w) urls ∧ urls <+: routes.map (·.url) ∧
      ((downloadRoutes env routes w).2 ≠ .ok () → urls = routes.map (·.url)) := by
  induction routes generalizing w with
  | nil => exact ⟨[], ⟨[], by simp [downloadRoutes], nofun, rfl, nofun, fun _ h ↦ absurd rfl h⟩,
      List.nil_prefix, fun _ ↦ rfl⟩
  | cons route routes ih =>
      obtain ⟨answer, hsent, hdelivers⟩ := downloadOne_delivers env route.url w
      rw [downloadRoutes]
      cases hone : downloadOne env route.url w with
      | mk w₁ result =>
          rw [hone] at hsent hdelivers
          cases result with
          | ok _ =>
              refine ⟨[route.url], ⟨[⟨.get, route.url, answer⟩], hsent, by simp, rfl, ?_, ?_⟩, ?_, ?_⟩
              · exact fun _ ↦ ⟨_, List.mem_singleton_self _, hdelivers rfl⟩
              · exact fun hfailed ↦ absurd rfl hfailed
              · exact List.cons_prefix_cons.mpr ⟨rfl, List.nil_prefix⟩
              · exact fun hfailed ↦ absurd rfl hfailed
          | error e =>
              dsimp only at hsent ⊢
              obtain ⟨urls, ⟨sent, hsent', hget, hurls, hok, hfailed⟩, hprefixed, hall⟩ := ih w₁
              refine ⟨route.url :: urls, ⟨⟨.get, route.url, answer⟩ :: sent, ?_, ?_, ?_, ?_, ?_⟩,
                List.cons_prefix_cons.mpr ⟨rfl, hprefixed⟩, fun herror ↦ ?_⟩
              · rw [hsent', hsent, List.append_assoc, List.singleton_append]
              · exact List.forall_mem_cons.mpr ⟨rfl, hget⟩
              · rw [List.map_cons, hurls]
              · exact fun h ↦ (hok h).imp fun _ he ↦ ⟨List.mem_cons_of_mem _ he.1, he.2⟩
              · intro herror _ hremoves
                by_cases hnil : urls = []
                · obtain rfl : routes = [] := List.map_eq_nil_iff.mp ((hall herror).symm.trans hnil)
                  simp only [downloadRoutes, World.removeFile, hremoves, if_true]
                · exact hfailed herror hnil hremoves
              · rw [hall herror, List.map_cons]

/-- Only the chosen route is tried. -/
theorem downloadManually_tries (env : Env) (routes : List Route) (t : Terminal) (w : World) :
    (Tries env w (downloadManually env routes t w) [] ∧ ∀ route, ¬ Selects routes t route) ∨
      ∃ route, Selects routes t route ∧ Tries env w (downloadManually env routes t w) [route.url] := by
  have hnone : ∀ e, Tries env w (w, .error e) [] := fun e ↦
    ⟨[], by simp, nofun, rfl, nofun, fun _ h ↦ absurd rfl h⟩
  unfold downloadManually
  cases hselect : selectRoute routes t with
  | error e =>
      refine .inl ⟨hnone e, ?_⟩
      rintro route ⟨index, t', t'', h, -⟩
      cases hselect.symm.trans h
  | ok chosen =>
      obtain ⟨index, t'⟩ := chosen
      have hchosen : ∀ {route}, Selects routes t route →
          routes[index]? = some route ∧ ∃ t'', t'.writes 2 = .ok t'' := by
        rintro route ⟨index', t₁, t'', h, hroute, hwrites⟩
        cases hselect.symm.trans h
        exact ⟨hroute, t'', hwrites⟩
      dsimp only
      cases hroute : routes[index]? with
      | none => exact .inl ⟨hnone _, fun route h ↦ by cases hroute.symm.trans (hchosen h).1⟩
      | some route =>
          dsimp only
          cases hwrites : t'.writes 2 with
          | error e =>
              refine .inl ⟨hnone e, fun route h ↦ ?_⟩
              obtain ⟨-, t'', h⟩ := hchosen h
              cases hwrites.symm.trans h
          | ok t'' =>
              refine .inr ⟨route, ⟨index, t', t'', hselect, hroute, hwrites⟩, ?_⟩
              obtain ⟨answer, hsent, hdelivers⟩ := downloadOne_delivers env route.url w
              dsimp only
              cases hone : downloadOne env route.url w with
              | mk w₁ result =>
                  rw [hone] at hsent hdelivers
                  cases result with
                  | ok _ => exact ⟨[⟨.get, route.url, answer⟩], hsent, by simp, rfl,
                      fun _ ↦ ⟨_, List.mem_singleton_self _, hdelivers rfl⟩,
                      fun hfailed ↦ absurd rfl hfailed⟩
                  | error e => exact ⟨[⟨.get, route.url, answer⟩], hsent, by simp, rfl, nofun,
                      fun _ _ hremoves ↦ by simp only [World.removeFile, hremoves, if_true]⟩

/-- Probes download nothing. -/
theorem probeRoutes_sent (env : Env) (routes : List Route) (w : World) :
    ∃ probes, (probeRoutes env routes w).sent = w.sent ++ probes ∧
      ∀ e ∈ probes, e.request = .probe := by
  unfold probeRoutes
  induction routes generalizing w with
  | nil => exact ⟨[], by simp, nofun⟩
  | cons route routes ih =>
      obtain ⟨probes, hsent, hprobes⟩ := ih (env.request w .probe route.url).1
      refine ⟨⟨.probe, route.url, env.net w.sent .probe route.url⟩ :: probes, ?_,
        List.forall_mem_cons.mpr ⟨rfl, hprobes⟩⟩
      rw [List.foldl_cons, hsent, Env.request, List.append_assoc, List.singleton_append]

theorem Tries.tried {r : World × Except DownloadError Unit} {urls : List String}
    (h : Tries env w r urls) : r.1.tried = w.tried ++ urls := by
  obtain ⟨sent, hsent, hget, rfl, -⟩ := h
  have hall : sent.filter (·.request = .get) = sent :=
    List.filter_eq_self.mpr fun e he ↦ decide_eq_true (hget e he)
  rw [World.tried, World.tried, hsent, List.filter_append, List.map_append, hall]

theorem tried_probeRoutes (env : Env) (routes : List Route) (w : World) :
    (probeRoutes env routes w).tried = w.tried := by
  obtain ⟨probes, hsent, hprobes⟩ := probeRoutes_sent env routes w
  have hnil : probes.filter (·.request = .get) = [] := by
    rw [List.filter_eq_nil_iff]
    intro e he hget
    rw [hprobes e he] at hget
    cases of_decide_eq_true hget
  rw [World.tried, World.tried, hsent, List.filter_append, hnil, List.append_nil]

theorem rankRoutes_perm (env : Env) (routes : List Route) : (rankRoutes env routes).Perm routes :=
  List.perm_insertionSort _ routes

/-- The routes are ranked by their scores. -/
theorem rankRoutes_pairwise (env : Env) (routes : List Route) :
    ((rankRoutes env routes).map (·.url)).Pairwise fun a b ↦
      (env.score b).rank ≤ (env.score a).rank := by
  have htotal : Std.Total fun a b : Route ↦ (env.score b.url).rank ≤ (env.score a.url).rank :=
    ⟨fun a b ↦ le_total _ _⟩
  have htrans : IsTrans Route fun a b ↦ (env.score b.url).rank ≤ (env.score a.url).rank :=
    ⟨fun a b c hab hbc ↦ hbc.trans hab⟩
  rw [List.pairwise_map]
  exact List.pairwise_insertionSort _ routes

theorem rankRoutes_of_length (h : ¬ 1 < routes.length) : rankRoutes env routes = routes := by
  cases routes with
  | nil => rfl
  | cons route routes =>
      cases routes with
      | nil => rfl
      | cons other routes => exact absurd (by simp) h

theorem Tries.delivered {r : World × Except DownloadError Unit} {urls : List String}
    (h : Tries env w r urls) (hok : r.2 = .ok ()) : ∃ e ∈ r.1.sent, e.Delivers r.1.destination := by
  obtain ⟨sent, hsent, -, -, hdelivered, -⟩ := h
  obtain ⟨e, he, hdelivers⟩ := hdelivered hok
  exact ⟨e, by rw [hsent]; exact List.mem_append_right _ he, hdelivers⟩

theorem Tries.removed {r : World × Except DownloadError Unit} {urls : List String}
    (h : Tries env w r urls) (hfailed : r.2 ≠ .ok ()) (hurls : urls ≠ [])
    (hremoves : env.removes = true) : r.1.destination = none := by
  obtain ⟨sent, -, -, -, -, hremoved⟩ := h
  exact hremoved hfailed hurls hremoves

theorem Tries.sent_nil {r : World × Except DownloadError Unit} (h : Tries env w r []) :
    r.1.sent = w.sent := by
  obtain ⟨sent, hsent, -, hurls, -⟩ := h
  rw [hsent, List.map_eq_nil_iff.mp hurls, List.append_nil]

theorem Tries.sent_singleton {r : World × Except DownloadError Unit} (h : Tries env w r [url]) :
    ∃ answer, r.1.sent = w.sent ++ [⟨.get, url, answer⟩] := by
  obtain ⟨sent, hsent, hget, hurls, -⟩ := h
  obtain ⟨⟨request, url', answer⟩, rfl, hurl⟩ := List.map_eq_singleton_iff.mp hurls
  obtain rfl : request = .get := hget _ (List.mem_singleton_self _)
  obtain rfl : url' = url := hurl
  exact ⟨answer, hsent⟩

/-- What `download` comes down to: an error before anything is tried, the chosen
route, or all routes in the order of their scores. -/
theorem download_cases (env : Env) (options : UpdateOptions) (original : String) (t : Terminal)
    (w : World) :
    (∃ e, options.download env original t w = (w, .error e) ∧
      (options.source = .auto → ¬ (options.validate env.parse = .ok () ∧ env.builds = .ok ())) ∧
      (options.source ≠ .auto → ¬ options.Asks env original)) ∨
    (options.source ≠ .auto ∧ options.Asks env original ∧ options.download env original t w =
      downloadManually env (options.routes original) t w) ∨
    (options.source = .auto ∧ ∃ w₀, w₀.tried = w.tried ∧
      options.download env original t w =
        downloadRoutes env (rankRoutes env (options.routes original)) w₀) := by
  unfold UpdateOptions.download
  cases hvalid : options.validate env.parse with
  | error e =>
      refine .inl ⟨_, rfl, fun _ h ↦ ?_, fun _ h ↦ ?_⟩
      · cases h.1
      · cases hvalid.symm.trans h.valid
  | ok _ =>
      cases hbuilds : env.builds with
      | error e =>
          refine .inl ⟨_, rfl, fun _ h ↦ ?_, fun _ h ↦ ?_⟩
          · cases h.2
          · cases hbuilds.symm.trans h.builds
      | ok _ =>
          dsimp only
          by_cases hauto : options.source = .auto
          · rw [if_neg (not_not_intro hauto)]
            split_ifs with hlength
            · exact .inr (.inr ⟨hauto, _, tried_probeRoutes env _ w, rfl⟩)
            · refine .inr (.inr ⟨hauto, w, rfl, ?_⟩)
              rw [rankRoutes_of_length hlength]
          · rw [if_pos hauto]
            split_ifs with hterminal
            · simp only [Bool.and_eq_true, decide_eq_true_eq, Bool.not_eq_true'] at hterminal
              refine .inl ⟨_, rfl, fun h ↦ absurd h hauto, fun _ h ↦ ?_⟩
              cases hterminal.2.symm.trans (h.terminal hterminal.1)
            · refine .inr (.inl ⟨hauto, ⟨hvalid, hbuilds, fun hlength ↦ ?_⟩, rfl⟩)
              simpa [hlength] using hterminal

end Download

/-- A download, and each of its helpers, succeeds only if a route that was tried
delivered the whole file; if all fail and the file can be removed, there is none.
The routes differ; in automatic mode they are tried by their scores, all of them
before giving up, and otherwise the chosen one is contacted and no other. -/
theorem download_atomic (env : Env) :
    (∀ url w, (downloadOne env url w).2 = .ok () →
      ∃ e ∈ (downloadOne env url w).1.sent, e.Delivers (downloadOne env url w).1.destination) ∧
    (∀ routes w, ∃ urls, Tries env w (downloadRoutes env routes w) urls) ∧
    (∀ routes t w, ∃ urls, Tries env w (downloadManually env routes t w) urls) ∧
    ∀ (options : UpdateOptions) original t destination r,
      options.download env original t ⟨destination, []⟩ = r →
      (r.2 = .ok () → ∃ e ∈ r.1.sent, e.Delivers r.1.destination) ∧
      (r.2 ≠ .ok () → r.1.tried ≠ [] → env.removes = true → r.1.destination = none) ∧
      ((options.routes original).map (·.url)).Nodup ∧
      (options.source = .auto →
        r.1.tried.Nodup ∧ r.1.tried ⊆ (options.routes original).map (·.url) ∧
        (r.1.tried.Pairwise fun a b ↦ (env.score b).rank ≤ (env.score a).rank ∧
          (env.score b).toRat ≤ (env.score a).toRat) ∧
        (options.validate env.parse = .ok () → env.builds = .ok () → r.2 ≠ .ok () →
          r.1.tried.Perm ((options.routes original).map (·.url)))) ∧
      (options.source ≠ .auto →
        (r.1.sent = [] ∧
          ¬ (options.Asks env original ∧ ∃ route, Selects (options.routes original) t route)) ∨
        ∃ route answer, options.Asks env original ∧ Selects (options.routes original) t route ∧
          r.1.sent = [⟨.get, route.url, answer⟩]) := by
  refine ⟨fun url w hok ↦ ?_, fun routes w ↦ ?_, fun routes t w ↦ ?_,
    fun options original t destination r hr ↦ ?_⟩
  · obtain ⟨answer, hsent, hdelivers⟩ := downloadOne_delivers env url w
    exact ⟨_, by rw [hsent]; simp, hdelivers hok⟩
  · obtain ⟨urls, htries, -⟩ := downloadRoutes_tries env routes w
    exact ⟨urls, htries⟩
  · rcases downloadManually_tries env routes t w with ⟨htries, -⟩ | ⟨route, -, htries⟩
    · exact ⟨[], htries⟩
    · exact ⟨[route.url], htries⟩
  · have hnodup := routes_nodup options original
    rcases download_cases env options original t ⟨destination, []⟩ with
      ⟨e, herror, hinvalid, hunasked⟩ | ⟨hmanual, hasks, hdownload⟩ | ⟨hauto, w₀, hw₀, hdownload⟩
    · rw [herror] at hr
      subst hr
      refine ⟨nofun, fun _ h ↦ absurd rfl h, hnodup, fun hauto ↦ ?_,
        fun hmanual ↦ .inl ⟨rfl, fun h ↦ hunasked hmanual h.1⟩⟩
      exact ⟨List.nodup_nil, List.nil_subset _, List.Pairwise.nil,
        fun hvalid hbuilds ↦ absurd ⟨hvalid, hbuilds⟩ (hinvalid hauto)⟩
    · rw [hr] at hdownload
      have hmanually := downloadManually_tries env (options.routes original) t ⟨destination, []⟩
      rw [← hdownload] at hmanually
      obtain ⟨urls, htries⟩ : ∃ urls, Tries env ⟨destination, []⟩ r urls := by
        rcases hmanually with ⟨htries, -⟩ | ⟨route, -, htries⟩
        · exact ⟨[], htries⟩
        · exact ⟨[route.url], htries⟩
      have htried : r.1.tried = urls := htries.tried
      refine ⟨htries.delivered, fun hfailed htried' ↦ htries.removed hfailed (htried ▸ htried'),
        hnodup, fun hauto ↦ absurd hauto hmanual, fun _ ↦ ?_⟩
      rcases hmanually with ⟨hnone, hunselected⟩ | ⟨route, hselects, hone⟩
      · exact .inl ⟨hnone.sent_nil, fun ⟨_, route, h⟩ ↦ hunselected route h⟩
      · obtain ⟨answer, hsent⟩ := hone.sent_singleton
        exact .inr ⟨route, answer, hasks, hselects, hsent⟩
    · rw [hr] at hdownload
      obtain ⟨urls, htries, hprefixed, hall⟩ :=
        downloadRoutes_tries env (rankRoutes env (options.routes original)) w₀
      rw [← hdownload] at htries hall
      have htried : r.1.tried = urls := by
        rw [htries.tried, hw₀]
        rfl
      have hperm := (rankRoutes_perm env (options.routes original)).map (·.url)
      refine ⟨htries.delivered, fun hfailed htried' ↦ htries.removed hfailed (htried ▸ htried'),
        hnodup, fun _ ↦ ?_, fun hmanual ↦ absurd hauto hmanual⟩
      rw [htried]
      refine ⟨hprefixed.sublist.nodup (hperm.nodup_iff.mpr hnodup),
        fun url hurl ↦ hperm.mem_iff.mp (hprefixed.subset hurl), ?_, fun _ _ hfailed ↦ ?_⟩
      · have hranked := (rankRoutes_pairwise env (options.routes original)).sublist hprefixed.sublist
        exact hranked.imp fun hrank ↦ ⟨hrank, F64.toRat_le_of_rank_le hrank⟩
      · rw [hall hfailed]
        exact hperm

/-- The direct route breaks off after one byte, and the mirror delivers three. -/
def brokenDirect : Env where
  parse _ := .error "relative URL without a base"
  builds := .ok ()
  net _ _ url :=
    if url = "https://github.com/archive" then
      .ok ⟨200, none, none, [⟨[7], by decide⟩], some "connection reset"⟩
    else .ok ⟨200, none, some 3, [⟨[1, 2], by decide⟩, ⟨[3], by decide⟩], none⟩
  score url := if url = "https://github.com/archive" then .ofInt 9 else .ofInt 4
  create := .ok ()
  fits _ := true
  removes := true
  isTerminal := false

example :
    let r := (⟨.auto, []⟩ : UpdateOptions).download brokenDirect "https://github.com/archive"
      ⟨[], none⟩ ⟨some [9], []⟩
    r.2.toBool = true ∧ r.1.destination = some [1, 2, 3] ∧
      r.1.tried = ["https://github.com/archive",
        "https://gh-proxy.com/https://github.com/archive"] := by
  decide +kernel

end Oxiproxy.Update
