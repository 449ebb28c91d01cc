import TableShell.Remote.Reply

/-!
# The remote service

The world of a session that works with the remote service: whether the service can be reached, the
responses that it still has to give, and the requests that were sent to it. A service that has given
all its responses gives empty ones.
-/

namespace TableShell

/-- A request that was sent, and the connection of its client. -/
structure SentRequest where
  client : Connection
  request : Request

/-- The remote service as a session sees it. -/
structure Remote where
  reachable : Bool := false
  responses : List Response := []
  sent : List SentRequest := []

namespace Remote

/-- The next response. -/
def respond (remote : Remote) : Response × Remote :=
  match remote.responses with
  | [] => (⟨200, .obj []⟩, remote)
  | response :: responses => (response, { remote with responses })

/-- The error of a call to a service that cannot be reached. -/
def unreachableError (call : Call) : Error :=
  .storage (Request.callName call) "service is not reachable"

/-- Answers a call made by the client of a connection. -/
def answer (client : Connection) (call : Call) (remote : Remote) :
    Except Error call.Reply × Remote :=
  match Request.ofCall? call with
  | .error e => (.error e, remote)
  | .ok request =>
    if remote.reachable then
      let (response, remote) := remote.respond
      (response.toReply call, { remote with sent := remote.sent ++ [⟨client, request⟩] })
    else (.error (unreachableError call), remote)

/-- The remote service. A client can be built for any connection. -/
def service : Service Remote where
  connect _ remote := (.ok (), remote)
  answer := answer
  pageBound remote := remote.responses.length

end Remote

end TableShell
