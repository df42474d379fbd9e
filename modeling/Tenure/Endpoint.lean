import Tenure.Metrics

/-!
# `Tenure.Endpoint`: the auxiliary pages of a process

A process serves one page for its health and one for its metrics. A page answers
requests that read it; `HEAD` leaves the body out. The health page is the same
whether or not the process leads.
-/

set_option autoImplicit false

namespace Tenure

/-- A status code and a body. -/
structure Response where
  status : Nat
  body : String
deriving Repr, DecidableEq

/-- A page under its path. -/
structure Endpoint where
  path : String
  body : String
deriving Repr, DecidableEq

namespace Endpoint

/-- The page that says that the process is alive. -/
def health : Endpoint := ⟨"/healthz", "ok"⟩

/-- The page that shows what was measured. -/
def metrics (m : Metrics) : Endpoint := ⟨"/metrics", String.join (m.lines.map (· ++ "\n"))⟩

/-- The path of a request, without its query. -/
def pathOf (target : String) : String := String.ofList (target.toList.takeWhile (· != '?'))

/-- Answers a request. -/
def answer (e : Endpoint) (method target : String) : Response :=
  if pathOf target != e.path then ⟨404, ""⟩
  else if method == "GET" then ⟨200, e.body⟩
  else if method == "HEAD" then ⟨200, ""⟩
  else ⟨405, ""⟩

/-- The answer to a request as it comes in. Only its first line counts. -/
def reply (e : Endpoint) (request : String) : Response :=
  let words := ((request.splitOn "\r\n").headD "").splitOn " "
  e.answer (words.getD 0 "") (words.getD 1 "")

end Endpoint

/-- What a status code says. -/
def Response.reason (r : Response) : String :=
  match r.status with
  | 200 => "OK"
  | 404 => "Not Found"
  | _ => "Method Not Allowed"

/-- A response as it goes out. The connection is closed after it. -/
def Response.text (r : Response) : String :=
  s!"HTTP/1.1 {r.status} {r.reason}\r\ncontent-type: text/plain; charset=utf-8\r\n"
    ++ s!"content-length: {r.body.utf8ByteSize}\r\nconnection: close\r\n\r\n{r.body}"

end Tenure
