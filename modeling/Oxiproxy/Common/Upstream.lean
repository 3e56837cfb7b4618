import Oxiproxy.Common.Domain

/-!
# Upstreams of node-owned proxies

Validation of the origin a direct proxy forwards to.  The URL parser belongs
to a third-party crate and is a parameter; only its accessors are used.
-/

namespace Oxiproxy

/-- What the code reads off a parsed URL. -/
structure Url where
  scheme : String
  hostStr : Option String
  portOrKnownDefault : Option UInt16
  username : String
  password : Option String
  path : String
  query : Option String
  fragment : Option String
  deriving DecidableEq, Repr

/-- `Url::parse`, with its error rendered as text. -/
abbrev UrlParser := String → Except String Url

/-- Fail with the message unless the condition holds. -/
def ensure (condition : Bool) (message : String) : Except String Unit :=
  if condition then .ok () else .error message

@[simp] theorem ensure_eq_ok {condition : Bool} {message : String} {u : Unit} :
    ensure condition message = .ok u ↔ condition = true := by
  cases condition <;> simp [ensure]

def parseUpstream (parse : UrlParser) (kind value : String) : Except String Url := do
  ensure (kind == "http" || kind == "https") "公网直连仅支持 HTTP/HTTPS 域名代理"
  let url ← parse (trim value)
  ensure (url.scheme == "http" || url.scheme == "https")
    "目标地址必须以 http:// 或 https:// 开头"
  ensure (kind != "https" || url.scheme == "https") "HTTPS 透传目标必须使用 https://"
  ensure (url.hostStr.isSome && url.portOrKnownDefault.any (0 < ·)) "目标地址缺少有效主机或端口"
  ensure (url.username.isEmpty && url.password.isNone) "目标地址不能包含登录凭据"
  ensure (url.path == "/" && url.query.isNone && url.fragment.isNone)
    "目标地址仅填写协议、主机和端口，不包含路径、查询参数或片段"
  return url

end Oxiproxy
