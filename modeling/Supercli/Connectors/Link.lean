import Supercli.Connectors.Reviews

/-!
# `Connectors.Link` — how a connector call fails

The errors of the two transports, and `call_outcome`, which sorts a failed call into those that provably
did not take effect and those that may have.
-/

namespace Supercli

/-- How the harness reaches a connector. -/
inductive ConnectorKind
  | mcpStdio
  | mcpHttp
  | builtin
deriving DecidableEq, Repr

/-- `Debug for ConnectorKind`. -/
def ConnectorKind.debug : ConnectorKind → String
  | .mcpStdio => "McpStdio"
  | .mcpHttp => "McpHttp"
  | .builtin => "Builtin"

/-- Errors of the stdio transport. -/
inductive ConnectorError
  | spawn (e : String)
  | unsupportedKind (kind : ConnectorKind)
  | handshake (e : String)
  | toolNotDeclared (tool : String)
  | unknownTool (tool : String)
  | mcp (code : Int) (message : String)
  | protocol (e : String)
  | io (e : String)
  | timeout
deriving DecidableEq, Repr

/-- Errors of the HTTP transport. -/
inductive HttpConnectorError
  | transportSetup (e : String)
  | transportMidCall (e : String)
  | status (code : Nat) (body : String)
  | handshake (e : String)
  | toolNotDeclared (tool : String)
  | unknownTool (tool : String)
  | mcp (code : Int) (message : String)
  | protocol (e : String)
  | noUrl
deriving DecidableEq, Repr

/-- An error of either transport. -/
inductive LinkError
  | stdio (e : ConnectorError)
  | http (e : HttpConnectorError)
  | noUrl (name : String)
  | io (e : String)
deriving DecidableEq, Repr

/-- `Display for ConnectorError`. -/
def ConnectorError.display : ConnectorError → String
  | .spawn e => "cannot spawn connector: " ++ e
  | .unsupportedKind kind => "connector kind " ++ kind.debug ++ " is not runnable by this spawner"
  | .handshake e => "MCP handshake failed: " ++ e
  | .toolNotDeclared tool => "connector offers undeclared tool " ++ debugStr tool ++ ": failing closed"
  | .unknownTool tool => "unknown tool " ++ debugStr tool
  | .mcp code message => "MCP error " ++ toString code ++ ": " ++ message
  | .protocol e => "MCP protocol error: " ++ e
  | .io e => "connector I/O error: " ++ e
  | .timeout => "connector timed out"

/-- `Display for HttpConnectorError`. -/
def HttpConnectorError.display : HttpConnectorError → String
  | .transportSetup e => "HTTP transport (before request sent): " ++ e
  | .transportMidCall e => "HTTP transport (after request sent): " ++ e
  | .status code body => "HTTP " ++ toString code ++ ": " ++ body
  | .handshake e => "MCP handshake failed: " ++ e
  | .toolNotDeclared tool => "connector offers undeclared tool " ++ debugStr tool ++ ": failing closed"
  | .unknownTool tool => "unknown tool " ++ debugStr tool
  | .mcp code message => "MCP error " ++ toString code ++ ": " ++ message
  | .protocol e => "MCP protocol error: " ++ e
  | .noUrl => "no mcp_url in the connector's config.json"

/-- `Display for LinkError`. -/
def LinkError.display : LinkError → String
  | .stdio e => e.display
  | .http e => e.display
  | .noUrl name => "no mcp_url in " ++ name ++ "'s config.json (mcp-http needs one)"
  | .io e => "I/O: " ++ e

/-- Whether a connector call provably ran, provably did not, or sits in between. -/
inductive CallOutcome
  | definiteOk
  | definiteFailed
  | ambiguous
deriving DecidableEq, Repr

/-- `LinkError::call_outcome`: explicit rejections, and failures before any bytes existed or were sent, are
    definite; everything else is ambiguous. -/
def LinkError.callOutcome (e : LinkError) (requestSent : Bool) : CallOutcome :=
  match e with
  | .stdio (.mcp _ _) | .http (.mcp _ _) | .stdio (.unknownTool _) | .http (.unknownTool _)
  | .stdio (.toolNotDeclared _) | .http (.toolNotDeclared _) => .definiteFailed
  | .http (.status code _) => if code ∈ [400, 401, 403, 404, 409, 422] then .definiteFailed else .ambiguous
  | .stdio (.spawn _) | .stdio (.unsupportedKind _) | .stdio (.handshake _) | .http (.handshake _)
  | .http .noUrl | .noUrl _ => .definiteFailed
  | .http (.transportSetup _) => if requestSent then .ambiguous else .definiteFailed
  | _ => .ambiguous

/-- Only transport failures before the send are worth a retry. -/
def LinkError.retryable : LinkError → Bool
  | .http (.transportSetup _) => true
  | _ => false

/-- `call_outcome` classifies failures only. -/
theorem callOutcome_ne_definiteOk {e : LinkError} : e.callOutcome requestSent ≠ .definiteOk := by
  unfold LinkError.callOutcome
  repeat' split
  all_goals simp

/-- The `content` items of an MCP result, by their text if they have one. -/
abbrev McpContent := List (Option String)

def mcpTextResult (content : McpContent) : String := "\n".intercalate (content.filterMap id)

/-- What came of the connector call: it panicked, or it returned, with the time at which the request was
    handed to the transport. -/
inductive LinkAnswer
  | panicked (message : String)
  | returned (result : Except LinkError McpContent) (requestSentAt : Option Nat)

/-- Did the call panic? -/
def LinkAnswer.isPanic : LinkAnswer → Bool
  | .panicked _ => true
  | .returned _ _ => false

/-- Whether the call took effect, as far as its answer tells. -/
def LinkAnswer.verdict : LinkAnswer → CallOutcome
  | .panicked _ => .ambiguous
  | .returned (.ok _) _ => .definiteOk
  | .returned (.error e) requestSentAt => e.callOutcome requestSentAt.isSome

end Supercli
