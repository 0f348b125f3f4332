import EraInfra.Infra.DockerArgs

/-!
# Docker arguments on the Node

The Infra Agent's own check of Docker arguments (`agent/dockerargs.go`), and the volumes that its
ownership checks read out of them (`agent/ownership.go`).

A Go map is gone through in an order that the language leaves open, so the flags with their value in the
same token come in any order (`Runtime.flags`).
-/

namespace EraInfra.Infra.Agent

open DocStore Texts

/-- What the Go library and the Go language do. -/
structure Runtime where
  toLower : CaseMap
  /-- `%q`. -/
  quote : String → String
  /-- The map of flags, in the order it is gone through. -/
  flags : List (List Char × ArgKind)
  flags_perm : flags.Perm combined

/-! ## Reading -/

variable (go : Runtime) (value : List Char)

def isControlByte (b : UInt8) : Bool := (b < 0x20 && b ≠ 9) || b = 0x7f

def containsDockerControlChar (text : List Char) : Bool := (utf8 text).any isControlByte

/-- The kind of a flag that takes the next token. -/
def switchKind (flag : String) : Option ArgKind :=
  if flag = "-p" ∨ flag = "--publish" then some .publish
  else if flag = "-v" ∨ flag = "--volume" then some .volume
  else if flag = "-e" ∨ flag = "--env" then some .env
  else if flag = "--add-host" then some .addHost
  else none

/-- The turns of the loop, up to the first one that cannot be read. -/
def readDockerArgs (go : Runtime) : List String → List (Except String DockerArg)
  | [] => []
  | flag :: rest =>
    if flag = "" ∨ 512 < (utf8 flag.toList).length ∨ containsDockerControlChar flag.toList = true then
      [.error "docker args: invalid token"]
    else
      match switchKind flag with
      | some kind =>
        match rest with
        | [] => [.error ("docker args: " ++ flag ++ " requires a value")]
        | value :: rest => .ok ⟨flag, kind, value.toList⟩ :: readDockerArgs go rest
      | none =>
        match go.flags.find? fun entry => entry.1.isPrefixOf flag.toList with
        | none => [.error ("docker args: flag " ++ go.quote flag ++ " is not allowed")]
        | some (start, kind) =>
          .ok ⟨flag, kind, flag.toList.drop start.length⟩ :: readDockerArgs go rest

/-! ## Checking -/

def maxInt : ℕ := 2 ^ 63 - 1

/-- `strconv.Atoi`, on decimal digits. -/
def atoi (digits : List Char) : Option ℕ :=
  if maxInt < Nat.ofDigitChars 10 digits 0 then none else some (Nat.ofDigitChars 10 digits 0)

/-- The part of `validateDockerPort` after the protocol was taken off. -/
def validateDockerDigits (raw digits : List Char) : Option String :=
  if isPortDigits digits = false then some ("invalid port " ++ go.quote (String.ofList raw))
  else
    match atoi digits with
    | none => some ("invalid port " ++ go.quote (String.ofList raw))
    | some port =>
      if port < 1 ∨ 65535 < port then some ("invalid port " ++ go.quote (String.ofList raw)) else none

def validateDockerPort (raw : List Char) (allowProto : Bool) : Option String :=
  match cutLastSlash raw with
  | none => validateDockerDigits go raw raw
  | some (digits, proto) =>
    if allowProto = false then some ("invalid port " ++ go.quote (String.ofList raw))
    else if proto ≠ "tcp".toList ∧ proto ≠ "udp".toList then
      some ("invalid port " ++ go.quote (String.ofList raw))
    else validateDockerDigits go raw digits

def validateDockerPublish : Option String :=
  let parts := value.splitOn ':'
  if parts.length ≠ 2 ∧ parts.length ≠ 3 then
    some "publish must be hostPort:containerPort or 127.0.0.1:hostPort:containerPort"
  else if parts.length = 3 ∧ parts.headD [] ≠ "127.0.0.1".toList then
    some "explicit publish address must be 127.0.0.1"
  else
    let ports := parts.drop (parts.length - 2)
    (validateDockerPort go (ports.headD []) false).or
      (validateDockerPort go ((ports.drop 1).headD []) true)

/-- The loop over the segments of a target; `named` says whether one of them was a name. -/
def targetLoop : List (List Char) → Bool → Option String
  | [], named => if named then none else some "the container root is not a mount target"
  | segment :: rest, named =>
    if segment = "..".toList then some "container mount target may not contain a \"..\" segment"
    else targetLoop rest (named || (segment ≠ [] && segment ≠ ".".toList))

def validateDockerVolumeTarget (target : List Char) : Option String :=
  if "/".toList.isPrefixOf target = false then some "container mount target must be an absolute path"
  else targetLoop (target.splitOn '/') false

def validateDockerVolume : Option String :=
  if dockerSock <:+: go.toLower.lower value then
    some "container-runtime sockets are not mountable"
  else
    let parts := value.splitOn ':'
    if parts.length < 2 ∨ 3 < parts.length ∨ isVolumeName (parts.headD []) = false then
      some "only named-volume mounts are allowed"
    else
      (validateDockerVolumeTarget ((parts.drop 1).headD [])).or
        (if parts.length = 3 ∧ (parts.drop 2).headD [] ≠ "ro".toList then
          some "only the read-only volume option is allowed"
        else none)

def validateDockerEnv : Option String :=
  let key := value.takeWhile (· ≠ '=')
  if '=' ∉ value ∨ isEnvName (String.ofList key) = false then
    some "environment values must be KEY=value"
  else none

def validateDockerValue (kind : ArgKind) (value : List Char) : Option String :=
  match kind with
  | .publish => validateDockerPublish go value
  | .volume => validateDockerVolume go value
  | .env => validateDockerEnv value
  | .addHost =>
    if value ≠ hostGateway then some "only the Portless mesh host-gateway entry is allowed" else none

def checkDockerArg : Except String DockerArg → Option String
  | .error error => some error
  | .ok arg =>
    if containsDockerControlChar arg.value = true then
      some ("docker args: " ++ arg.flag ++ ": invalid value")
    else (validateDockerValue go arg.kind arg.value).map fun error =>
      "docker args: " ++ arg.flag ++ ": " ++ error

def validateDockerArgs (args : List String) : Option String :=
  if 64 < args.length then some "docker args: at most 64 tokens"
  else (readDockerArgs go args).findSome? (checkDockerArg go)

/-! ## Volumes -/

/-- The named volumes in validated Docker arguments. -/
def mountedVolumes : List String → List (List Char)
  | [] => []
  | arg :: rest =>
    if arg = "-v" ∨ arg = "--volume" then
      match rest with
      | [] => []
      | value :: rest => value.toList.takeWhile (· ≠ ':') :: mountedVolumes rest
    else if "-v=".toList.isPrefixOf arg.toList then
      (arg.toList.drop 3).takeWhile (· ≠ ':') :: mountedVolumes rest
    else if "--volume=".toList.isPrefixOf arg.toList then
      (arg.toList.drop 9).takeWhile (· ≠ ':') :: mountedVolumes rest
    else mountedVolumes rest

end EraInfra.Infra.Agent
