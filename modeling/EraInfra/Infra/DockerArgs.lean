import EraInfra.Core.Texts
import EraInfra.Infra.Policy

/-!
# Docker arguments in the control plane

`infra/dockerArgs.ts` and the names of `infra/namespace.ts` that are read out of Docker arguments.

The loop over the tokens is in two parts: `readArgs` goes over the tokens and says, turn by turn, which
flag takes which value, and `validateDockerArgs` checks one turn after the other until one is refused.
Case is folded with the engine's `toLowerCase`, a `Texts.CaseMap`.
-/

namespace EraInfra.Infra

open DocStore Texts

variable (engine : CaseMap) (value : List Char)

inductive ArgKind
  | publish
  | volume
  | env
  | addHost
deriving DecidableEq, Repr

/-- One turn of the loop: a flag as it was given, and the value it takes. -/
structure DockerArg where
  flag : String
  kind : ArgKind
  value : List Char

/-! ## Reading -/

/-- `/[\u0000-\u0008\u000A-\u001F\u007F]/`, on a code unit. -/
def isControlUnit (u : ℕ) : Bool := u ≤ 8 || (10 ≤ u && u ≤ 31) || u = 127

def hasControl (text : List Char) : Bool := (utf16 text).any isControlUnit

/-- The flags that take the next token. -/
def splitKind (flag : String) : Option ArgKind :=
  if flag = "-p" ∨ flag = "--publish" then some .publish
  else if flag = "-v" ∨ flag = "--volume" then some .volume
  else if flag = "-e" ∨ flag = "--env" then some .env
  else if flag = "--add-host" then some .addHost
  else none

/-- What a flag with its value in the same token begins with. -/
def combined : List (List Char × ArgKind) :=
  [("-p=".toList, .publish), ("--publish=".toList, .publish), ("-v=".toList, .volume),
    ("--volume=".toList, .volume), ("-e=".toList, .env), ("--env=".toList, .env),
    ("--add-host=".toList, .addHost)]

/-- The turns of the loop, up to the first one that cannot be read. -/
def readArgs : List String → List (Except String DockerArg)
  | [] => []
  | flag :: rest =>
    if flag = "" ∨ 512 < (utf8 flag.toList).length ∨ hasControl flag.toList = true then
      [.error "docker args: invalid token"]
    else
      match splitKind flag with
      | some kind =>
        match rest with
        | [] => [.error ("docker args: " ++ flag ++ " requires a value")]
        | value :: rest => .ok ⟨flag, kind, value.toList⟩ :: readArgs rest
      | none =>
        match combined.find? fun entry => entry.1.isPrefixOf flag.toList with
        | none => [.error ("docker args: flag \"" ++ flag ++ "\" is not allowed")]
        | some (start, kind) =>
          .ok ⟨flag, kind, flag.toList.drop start.length⟩ :: readArgs rest

/-! ## Checking -/

/-- What stands before and after the last slash. -/
def cutLastSlash (text : List Char) : Option (List Char × List Char) :=
  if '/' ∈ text then
    let after := (text.reverse.takeWhile (· ≠ '/')).reverse
    some (text.take (text.length - after.length - 1), after)
  else none

def invalidPort (raw : List Char) : String := "invalid port \"" ++ String.ofList raw ++ "\""

/-- `/^[0-9]+$/`. -/
def isPortDigits (digits : List Char) : Bool := digits ≠ [] && digits.all Char.isDigit

/-- A number outside the range stays outside when it is rounded. -/
def validatePortDigits (raw digits : List Char) : Option String :=
  if isPortDigits digits = false then some (invalidPort raw)
  else if Nat.ofDigitChars 10 digits 0 < 1 ∨ 65535 < Nat.ofDigitChars 10 digits 0 then
    some (invalidPort raw)
  else none

def validatePort (raw : List Char) (allowProto : Bool) : Option String :=
  match cutLastSlash raw with
  | none => validatePortDigits raw raw
  | some (digits, proto) =>
    if allowProto = false then some (invalidPort raw)
    else if proto ≠ "tcp".toList ∧ proto ≠ "udp".toList then some (invalidPort raw)
    else validatePortDigits raw digits

def validatePublish : Option String :=
  match value.splitOn ':' with
  | [hostPort, containerPort] => (validatePort hostPort false).or (validatePort containerPort true)
  | [address, hostPort, containerPort] =>
    if address ≠ "127.0.0.1".toList then some "explicit publish address must be 127.0.0.1"
    else (validatePort hostPort false).or (validatePort containerPort true)
  | _ => some "publish must be hostPort:containerPort or 127.0.0.1:hostPort:containerPort"

def validateVolumeTarget (target : List Char) : Option String :=
  let segments := target.splitOn '/'
  if "/".toList.isPrefixOf target = false then some "container mount target must be an absolute path"
  else if "..".toList ∈ segments then some "container mount target may not contain a \"..\" segment"
  else if segments.all fun segment => segment = [] || segment = ".".toList then
    some "the container root is not a mount target"
  else none

/-- `/^[A-Za-z0-9][A-Za-z0-9_.-]{0,127}$/`. -/
def isVolumeName (name : List Char) : Bool :=
  isWord Char.isAlphanum (fun c => c.isAlphanum || ['_', '.', '-'].contains c) 127 name

def dockerSock : List Char := "docker.sock".toList

lemma dockerSock_ascii : ∀ q ∈ dockerSock, q.toNat < 128 ∧ q ≠ 'i' := forall_mem_of_all (by decide)

def validateVolume : Option String :=
  if dockerSock <:+: engine.lower value then some "container-runtime sockets are not mountable"
  else
    match value.splitOn ':' with
    | [name, target] =>
      if isVolumeName name = false then some "only named-volume mounts are allowed"
      else validateVolumeTarget target
    | [name, target, option] =>
      if isVolumeName name = false then some "only named-volume mounts are allowed"
      else
        (validateVolumeTarget target).or
          (if option ≠ "ro".toList then some "only the read-only volume option is allowed" else none)
    | _ => some "only named-volume mounts are allowed"

def validateEnv : Option String :=
  let key := value.takeWhile (· ≠ '=')
  if '=' ∉ value ∨ key.length < 1 ∨ isEnvName (String.ofList key) = false then
    some "environment values must be KEY=value"
  else none

def hostGateway : List Char := "host.docker.internal:host-gateway".toList

/-- The check of one value. -/
def validateValue (kind : ArgKind) (value : List Char) : Option String :=
  match kind with
  | .publish => validatePublish value
  | .volume => validateVolume engine value
  | .env => validateEnv value
  | .addHost =>
    if value = hostGateway then none else some "only the Portless mesh host-gateway entry is allowed"

/-- The check of one turn. -/
def checkArg : Except String DockerArg → Option String
  | .error error => some error
  | .ok arg =>
    if hasControl arg.value = true then some ("docker args: " ++ arg.flag ++ ": invalid value")
    else (validateValue engine arg.kind arg.value).map fun error =>
      "docker args: " ++ arg.flag ++ ": " ++ error

def validateDockerArgs (args : List String) : Option String :=
  if 64 < args.length then some "docker args: at most 64 tokens"
  else (readArgs args).findSome? (checkArg engine)

/-! ## Volumes -/

/-- The name in a volume value. -/
def sourceName : List Char := (value.splitOn ':').headD []

/-- The named volumes a service's Docker arguments mount. -/
def volumeNames : List String → List (List Char)
  | [] => []
  | arg :: rest =>
    if arg = "-v" ∨ arg = "--volume" then
      match rest with
      | [] => []
      | value :: rest => sourceName value.toList :: volumeNames rest
    else if "-v=".toList.isPrefixOf arg.toList then sourceName (arg.toList.drop 3) :: volumeNames rest
    else if "--volume=".toList.isPrefixOf arg.toList then
      sourceName (arg.toList.drop 9) :: volumeNames rest
    else volumeNames rest

end EraInfra.Infra
