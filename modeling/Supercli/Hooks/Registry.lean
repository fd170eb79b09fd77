import Supercli.Hooks.Contract

/-!
# `Hooks.Registry` — the handlers that `hooks.toml` declares

The model of `registry.rs`: two files are read, their `[doc_events]` tables are walked through, and every handler is
either registered or put on the list of disabled ones with a reason. A file that cannot be read or understood fails the
whole load. What the libraries do (reading TOML and the derived conversion of a handler) is a parameter; the defaults that
the conversion fills in are ours.
-/

namespace Supercli.Hooks

/-! ## Files -/

/-- `toml::Value`; a table lists its entries in the order in which they are walked through. -/
inductive TomlValue
  | string (s : String)
  | integer (n : Int)
  | boolean (b : Bool)
  /-- Floats and dates, which nothing here reads. -/
  | other
  | array (items : List TomlValue)
  | table (entries : List (String × TomlValue))

def TomlValue.asTable : TomlValue → Option (List (String × TomlValue))
  | .table entries => some entries
  | _ => none

def TomlValue.asArray : TomlValue → Option (List TomlValue)
  | .array items => some items
  | _ => none

def TomlValue.get (key : String) : TomlValue → Option TomlValue
  | .table entries => entries.lookup key
  | _ => none

/-- A handler as it is written, before defaults are filled in. -/
structure RawDecl where
  name : String
  priority : Option Nat
  timeoutMs : Option Nat
  command : Option (List String)
  webhook : Option String
deriving DecidableEq, Repr

structure HandlerDecl where
  name : String
  priority : Nat
  timeoutMs : Nat
  command : Option (List String)
  webhook : Option String
deriving DecidableEq, Repr

def defaultPriority : Nat := 100

def defaultTimeoutMs : Nat := 2000

def HandlerDecl.ofRaw (raw : RawDecl) : HandlerDecl :=
  ⟨raw.name, raw.priority.getD defaultPriority, raw.timeoutMs.getD defaultTimeoutMs, raw.command, raw.webhook⟩

/-- What stands at a path. -/
inductive FileState
  | absent
  /-- It is there, but `Path::exists` cannot look at it (a directory above it may not be searched), and says `false`. -/
  | hidden (error : String)
  | unreadable (error : String)
  | text (content : String)
deriving DecidableEq, Repr

/-- `Path::exists`. -/
def FileState.exists : FileState → Bool
  | .absent | .hidden _ => false
  | .unreadable _ | .text _ => true

/-- `std::fs::read_to_string`. -/
def FileState.readToString : FileState → Except String String
  | .absent => .error "No such file or directory (os error 2)"
  | .hidden error => .error error
  | .unreadable error => .error error
  | .text content => .ok content

/-- What the process finds around it. -/
structure HookEnv where
  home : Option String
  userProfile : Option String
  currentDir : Option String
  file : String → FileState
  isFile : String → Bool
  /-- The directories of `PATH`. -/
  path : Option (List String)

/-- `Path::join` with a relative path. -/
def joinPath (dir name : String) : String :=
  if dir = "" then name else if dir.toList.getLast? = some '/' then dir ++ name else dir ++ "/" ++ name

def defaultPaths (env : HookEnv) : String × String :=
  let global := match env.home.orElse fun _ => env.userProfile with
    | some home => joinPath (joinPath home ".supercli") "hooks.toml"
    | none => ".supercli-hooks-global.toml"
  (global, joinPath (joinPath (env.currentDir.getD ".") ".supercli") "hooks.toml")

/-! ## Handlers -/

inductive HandlerTarget
  | command (argv : List String)
  | webhook (url : String)
deriving DecidableEq, Repr

structure HookHandler where
  name : String
  entity : DocType
  event : DocEvent
  priority : Nat
  timeoutMs : Nat
  target : HandlerTarget
  global : Bool
  order : Nat
deriving DecidableEq, Repr

structure DisabledHandler where
  name : String
  entity : String
  event : String
  reason : String
  global : Bool
deriving DecidableEq, Repr

/-- `HookRegistry`; the vectors of the map stand in one list, in the order of insertion. -/
structure HookRegistry where
  handlers : List HookHandler
  disabled : List DisabledHandler

def commandOnPath (env : HookEnv) (program : String) : Bool :=
  let chars := program.toList
  if chars.head? = some '/' then env.isFile program
  else if chars.contains '/' || chars.contains (Char.ofNat 92) then env.isFile program
  else match env.path with
    | some dirs => dirs.any fun dir => env.isFile (joinPath dir program)
    | none => false

/-- The host of a URL after its scheme: without the user, the path and the port. -/
def urlHost (rest : String) : String :=
  let afterUserinfo := (rest.toList.reverse.takeWhile (· != '@')).reverse
  let hostPort := afterUserinfo.takeWhile (· != '/')
  String.ofList <| match hostPort with
    | '[' :: inside => inside.takeWhile (· != ']')
    | _ => hostPort.takeWhile (· != ':')

def validateLocalhostUrl (url : String) : Except String Unit :=
  let lower := String.ofList (url.toList.map Char.toLower)
  match (stripPrefix "http://" lower).orElse fun _ => stripPrefix "https://" lower with
  | none => .error "URL must start with http:// or https://"
  | some rest =>
    if ["127.0.0.1", "::1", "localhost"].contains (urlHost rest) then .ok ()
    else .error "webhook host must be 127.0.0.1, ::1, or localhost"

/-- What the libraries that read `hooks.toml` do. -/
structure TomlLibs where
  /-- `toml::from_str`. -/
  parseToml : String → Except String TomlValue
  /-- The derived conversion of a handler. -/
  tryInto : TomlValue → Except String RawDecl
  /-- `str::trim`. -/
  trim : String → String

/-- A handler that a file declares. -/
structure Declared where
  entity : DocType
  event : DocEvent
  decl : HandlerDecl
deriving DecidableEq, Repr

section Load

variable (libs : TomlLibs) (env : HookEnv) (path : String) (global : Bool)

/-- Where a declared handler goes, or why it is disabled. -/
def declTarget (decl : HandlerDecl) : Except String HandlerTarget :=
  if libs.trim decl.name = "" then .error (path ++ ": handler name must not be empty")
  else
    let handler := path ++ ": handler " ++ debugStr decl.name ++ ": "
    match decl.command, decl.webhook with
    | some [], none => .error (handler ++ "command must be a non-empty argv array")
    | some (p :: args), none =>
      if commandOnPath env p then .ok (.command (p :: args))
      else .error (handler ++ "command " ++ debugStr p ++ " not found on PATH")
    | none, some url =>
      match validateLocalhostUrl url with
      | .ok () => .ok (.webhook url)
      | .error reason => .error (handler ++ "webhook " ++ debugStr url ++ ": " ++ reason)
    | some _, some _ => .error (handler ++ "specify exactly one of command / webhook")
    | none, none => .error (handler ++ "specify command or webhook")

def addDecl (reg : HookRegistry) (d : Declared) (order : Nat) : HookRegistry :=
  match declTarget libs env path d.decl with
  | .error reason => { reg with disabled := reg.disabled ++ [⟨d.decl.name, d.entity.asStr, d.event.asStr, reason, global⟩] }
  | .ok target =>
    { reg with handlers := reg.handlers ++
        [⟨d.decl.name, d.entity, d.event, d.decl.priority, d.decl.timeoutMs, target, global, order⟩] }

/-- A registry under construction, with the number of handlers that were declared. -/
abbrev Loading := HookRegistry × Nat

/-- One handler of a list. -/
def loadHandler (entity : DocType) (event : DocEvent) (entityName eventName : String)
    (s : Loading) (h : TomlValue) : Except String Loading :=
  match libs.tryInto h with
  | .error e => .error (path ++ ": bad handler for " ++ entityName ++ "." ++ eventName ++ ": " ++ e)
  | .ok raw => .ok (addDecl libs env path global s.1 ⟨entity, event, .ofRaw raw⟩ (s.2 + 1), s.2 + 1)

/-- One event of an entity. -/
def loadEvent (entity : DocType) (entityName : String) (s : Loading)
    (entry : String × TomlValue) : Except String Loading :=
  match DocEvent.parse entry.1 with
  | none => .error (path ++ ": unknown event " ++ debugStr entry.1 ++ " for entity " ++ entityName)
  | some event =>
    match entry.2.asArray with
    | none => .error (path ++ ": " ++ entityName ++ "." ++ entry.1 ++ " must be a list of handlers")
    | some handlers => handlers.foldlM (loadHandler libs env path global entity event entityName entry.1) s

/-- One entity of a file. -/
def loadEntity (s : Loading) (entry : String × TomlValue) : Except String Loading :=
  match DocType.parse entry.1 with
  | none => .error (path ++ ": unknown entity " ++ debugStr entry.1 ++ " (expected one of Session, Turn, ToolCall, "
      ++ "Approval, Grant, Schedule, Job, Connector, Device, FileWrite, Idea)")
  | some entity =>
    match entry.2.asTable with
    | none => .error (path ++ ": [doc_events." ++ entry.1 ++ "] must be a table of event -> handlers")
    | some events => events.foldlM (loadEvent libs env path global entity entry.1) s

def loadFile (orderBase : Nat) (reg : HookRegistry) : Except String HookRegistry :=
  match (env.file path).readToString with
  | .error e => .error ("read " ++ path ++ ": " ++ e)
  | .ok content =>
    match libs.parseToml content with
    | .error e => .error ("parse " ++ path ++ ": " ++ e)
    | .ok doc =>
      match (doc.get "doc_events").bind TomlValue.asTable with
      | none => .error (path ++ ": missing [doc_events] table")
      | some docEvents => (docEvents.foldlM (loadEntity libs env path global) (reg, orderBase)).map Prod.fst

/-- The order in which handlers run: by priority, then global before project, then as declared. -/
def HookHandler.runsBefore (a b : HookHandler) : Bool :=
  if a.priority ≠ b.priority then a.priority < b.priority
  else if a.global ≠ b.global then a.global
  else a.order ≤ b.order

def HookRegistry.sortAll (reg : HookRegistry) : HookRegistry :=
  { reg with handlers := reg.handlers.insertionSort fun a b => a.runsBefore b = true }

/-- A file of the two, if it is there. -/
def loadIfExists (reg : HookRegistry) : Except String HookRegistry :=
  if (env.file path).exists then loadFile libs env path global reg.handlers.length reg else .ok reg

def HookRegistry.load (globalPath projectPath : String) : Except String HookRegistry := do
  let reg ← loadIfExists libs env globalPath true ⟨[], []⟩
  let reg ← loadIfExists libs env projectPath false reg
  pure reg.sortAll

end Load

section

variable (reg : HookRegistry) (entity : DocType) (event : DocEvent)

def HookRegistry.handlersFor : List HookHandler :=
  reg.handlers.filter fun h => h.entity == entity && h.event == event

def HookRegistry.hasHandlers : Bool :=
  !(reg.handlersFor entity event).isEmpty

end

end Supercli.Hooks
