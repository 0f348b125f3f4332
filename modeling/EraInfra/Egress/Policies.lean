import EraInfra.Core.WhiteSpace
import EraInfra.Core.Transaction
import EraInfra.Core.Sorting
import EraInfra.Backend.Policy

/-!
# The two egress-policy implementations

The control plane validates and normalizes a Profile's egress policy before it stores it
(`egress.ts`), and the Worker validates it again before it enforces it (`netpolicy/egress.go`).
Each is modelled as its own source has it.

The Go side reads addresses with `net/netip`, which is not part of this repository.  `Netip` is what
is assumed of it: an IPv4 address is dotted decimal without leading zeros, a prefix length is 0 to
32 without leading zeros, and an IPv6 address has a colon.
-/

namespace EraInfra

open DocStore Encoding Sorting

/-! ## What both sides read alike -/

/-- `[a-z0-9_]`. -/
def isLabelChar (c : Char) : Bool := ('a' ≤ c && c ≤ 'z') || c.isDigit || c = '_'

/-- `^[a-z0-9_]([a-z0-9_-]{0,61}[a-z0-9_])?$`, the text of both patterns. -/
def matchesDomainLabel (label : List Char) : Bool :=
  match label with
  | [] => false
  | first :: rest =>
    isLabelChar first && (rest.isEmpty ||
      (rest.length ≤ 62 && (rest.dropLast.all fun c => isLabelChar c || c = '-') &&
        rest.getLast?.any isLabelChar))

/-- `replace(/\.$/, "")` and `strings.TrimSuffix(s, ".")`. -/
def dropTrailingDot (s : String) : String :=
  if s.toList.getLast? = some '.' then String.ofList s.toList.dropLast else s

/-- The text after `*.`, or the whole. -/
def afterWildcard (domain : String) : String :=
  match domain.toList with
  | '*' :: '.' :: name => String.ofList name
  | _ => domain

/-! ## The control plane -/

namespace ControlPlane

/-- A policy as it is published: the mode and the lists may be absent. -/
structure EgressPayload where
  mode : Option String
  presets : Option (List String)
  domains : Option (List String)
  cidrs : Option (List String)

def maxEgressDomains : ℕ := 256
def maxEgressCidrs : ℕ := 256

def sortedUnique (values : List String) : List String := sortBy codeUnits values.eraseDups

/-- `^(0|[1-9][0-9]{0,more})$`. -/
def matchesNumber (more : ℕ) (text : String) : Bool := text = "0" || match text.toList with
    | [] => false
    | first :: rest => first.isDigit && first ≠ '0' && rest.length ≤ more && rest.all Char.isDigit

/-- `^(0|[1-9][0-9]{0,2})$`. -/
def isOctetText (part : String) : Bool := matchesNumber 2 part

/-- `^(0|[1-9][0-9]?)$`. -/
def isLengthText (length : String) : Bool := matchesNumber 1 length

/-- `Number(text)` of a text of digits. -/
def number (text : String) : ℕ := Nat.ofDigitChars 10 text.toList 0

/-- One part of the loop of `parseIPv4`. -/
def addOctet (value : ℕ) (part : String) : Option ℕ :=
  if !isOctetText part then none
  else
    let octet := number part
    if octet > 255 then none else some (value * 256 + octet)

def parseIPv4 (text : String) : Option ℕ :=
  let parts := splitText '.' text
  if parts.length ≠ 4 then none else parts.foldlM addOctet 0

def formatIPv4 (value : ℕ) : String :=
  String.intercalate "." ([24, 16, 8, 0].map fun shift => Nat.repr (value / 2 ^ shift % 256))

/-- An IPv4 address or CIDR, masked, as `a.b.c.d/n`. -/
def normalizeIPv4Destination (text : String) : Option String :=
  match splitText '/' text with
  | [address] =>
    match parseIPv4 address with
    | none => none
    | some parsed => some (formatIPv4 parsed ++ "/32")
  | [address, length] =>
    match parseIPv4 address with
    | none => none
    | some parsed =>
      if !isLengthText length then none
      else
        let bits := number length
        if bits > 32 then none
        else
          let size := 2 ^ (32 - bits)
          some (formatIPv4 (parsed / size * size) ++ "/" ++ Nat.repr bits)
  | _ => none

def normalizeDomain (js : Engine) (domain : String) : String :=
  dropTrailingDot (js.toLowerCase (trim domain))

/-- Why a normalized domain is refused. -/
def domainProblem (domain : String) : Option String :=
  let name := afterWildcard domain
  let labels := name.toList.splitOn '.'
  if name.toList.contains '*' then
    some s!"{domain}: a wildcard is allowed only as the whole first label"
  else if jsLength name > 253 then some s!"{domain} is longer than 253 characters"
  else if labels.length < 2 then some s!"{domain} must have at least two labels"
  else if labels.any fun label => !matchesDomainLabel label then some s!"{domain} has an invalid label"
  else if parseIPv4 name ≠ none then some s!"{domain} is an address; list it as a CIDR"
  else none

/-- The entries of a list that are not blank, trimmed. -/
def entries (value : Option (List String)) : List String :=
  ((value.getD []).map trim).filter fun entry => entry ≠ ""

def egressMode (rawMode : String) : Option EgressMode :=
  if rawMode = "public" then some .publicInternet
  else if rawMode = "audit" then some .audit
  else if rawMode = "allowlist" then some .allowlist
  else none

/-- One entry of the loop over the CIDRs. -/
def storedCidr (cidr : String) : Except String String :=
  match normalizeIPv4Destination cidr with
  | some normalized => pure normalized
  | none => throw s!"{cidr} must be an IPv4 address or CIDR; guests have no IPv6 egress"

/-- The canonical policy, or why it is refused; an absent one is public. -/
def parseProfileEgress (js : Engine) (payload : Option EgressPayload) :
    Except String ProfileEgress := do
  match payload with
  | none => pure publicEgress
  | some payload =>
    match egressMode (payload.mode.getD "public") with
    | none => throw "egress.mode must be public, audit, or allowlist"
    | some mode =>
      let presets := sortedUnique ((entries payload.presets).map js.toLowerCase)
      let domains := sortedUnique
        (((entries payload.domains).map (normalizeDomain js)).filter fun domain => domain ≠ "")
      let cidrs ← (entries payload.cidrs).mapM storedCidr
      let uniqueCidrs := sortedUnique cidrs
      let allowed := presets.length + domains.length + uniqueCidrs.length
      refuseIf (mode = .publicInternet ∧ allowed > 0)
        "public egress takes no allowlist; use audit or allowlist mode"
      refuseSome (presets.find? fun preset => preset ≠ "github") fun preset =>
        s!"unknown egress preset {preset}"
      refuseIf (domains.length > maxEgressDomains)
        s!"an egress allowlist holds at most {maxEgressDomains} domains"
      refuseIf (uniqueCidrs.length > maxEgressCidrs)
        s!"an egress allowlist holds at most {maxEgressCidrs} CIDRs"
      refuseSome (domains.findSome? domainProblem) fun problem => s!"allowed domain {problem}"
      refuseIf (mode = .allowlist ∧ allowed = 0)
        ("allowlist egress with nothing allowed denies GitHub itself; " ++ "add the github preset")
      pure { mode, presets, domains, cidrs := uniqueCidrs }

end ControlPlane

/-! ## The Worker -/

/-- ASCII text. -/
def IsAscii (s : String) : Prop := ∀ c ∈ s.toList, c.toNat < 128

/-- Lowercase of ASCII text. -/
def asciiLower (s : String) : String := String.ofList (s.toList.map Char.toLower)

/-- An address of `net/netip`. -/
inductive NetAddr
  | v4 (value : BitVec 32)
  | v6 (value : BitVec 128) (zone : String)

/-- `net/netip`, with what is assumed of its parsers for IPv4. -/
structure Netip where
  parseAddr : String → Except String NetAddr
  parsePrefix : String → Except String (NetAddr × ℕ)
  parseAddr_v4 : ∀ s a, parseAddr s = .ok (.v4 a) ↔ s.toList = dotted a.toNat
  parseAddr_v6 : ∀ s a zone, parseAddr s = .ok (.v6 a zone) → ':' ∈ s.toList
  parsePrefix_v4 : ∀ s a bits, parsePrefix s = .ok (.v4 a, bits) ↔
    bits ≤ 32 ∧ s.toList = dotted a.toNat ++ '/' :: decimal bits

/-- What the Worker's code uses of Go. -/
structure GoRuntime extends Netip where
  /-- `strings.ToLower`. -/
  toLower : String → String
  toLower_ascii : ∀ s, IsAscii s → toLower s = asciiLower s
  /-- The verb `%q`. -/
  quote : String → String

namespace Netpolicy

/-- `len(s)`: bytes of UTF-8. -/
def byteLength (s : String) : ℕ := (s.toList.map Char.utf8Size).sum

/-- The order of strings: UTF-8 keeps the order of code points. -/
def codePoints (s : String) : List ℕ := s.toList.map Char.toNat

/-- A policy as the Worker holds it; an absent mode is the empty text, an absent list nil. -/
structure ProfileEgress where
  mode : String
  presets : List String
  domains : List String
  cidrs : List String

def maxEgressDomains : ℕ := 256
def maxEgressCIDRs : ℕ := 256

def sortedUnique (values : List String) : List String :=
  if values.length = 0 then [] else compact (sortBy codePoints values)

/-- An IPv4 prefix: the address and the number of bits. -/
structure IPv4Prefix where
  addr : BitVec 32
  bits : ℕ

/-- `prefix.String()`. -/
def IPv4Prefix.string (p : IPv4Prefix) : String :=
  String.ofList (dotted p.addr.toNat ++ '/' :: decimal p.bits)

/-- `prefix.Masked()`. -/
def IPv4Prefix.masked (p : IPv4Prefix) : IPv4Prefix :=
  ⟨(p.addr >>> (32 - p.bits)) <<< (32 - p.bits), p.bits⟩

lemma toNat_masked (p : IPv4Prefix) :
    p.masked.addr.toNat = p.addr.toNat / 2 ^ (32 - p.bits) * 2 ^ (32 - p.bits) := by
  have hlt := (Nat.div_mul_le_self p.addr.toNat (2 ^ (32 - p.bits))).trans_lt p.addr.isLt
  rw [IPv4Prefix.masked, BitVec.toNat_shiftLeft, BitVec.toNat_ushiftRight,
    Nat.shiftRight_eq_div_pow, Nat.shiftLeft_eq, Nat.mod_eq_of_lt hlt]

variable (go : GoRuntime)

def normalizeDomain (domain : String) : String := dropTrailingDot (go.toLower (trimSpaceText domain))

/-- An IPv4 CIDR, masked, or a bare address, which means a /32. -/
def parseIPv4Destination (value : String) : Except String IPv4Prefix := do
  if !value.toList.contains '/' then
    match ← go.parseAddr value with
    | .v4 address => pure ⟨address, 32⟩
    | .v6 _ _ => throw "must be IPv4; guests have no IPv6 egress"
  else
    match ← go.parsePrefix value with
    | (.v4 address, bits) => pure (IPv4Prefix.masked ⟨address, bits⟩)
    | (.v6 _ _, _) => throw "must be IPv4; guests have no IPv6 egress"

/-- One entry of `CIDRs`: one that does not parse is kept for `Validate` to refuse. -/
def normalizedCIDR (value : String) : String :=
  match parseIPv4Destination go value with
  | .ok p => p.string
  | .error _ => value

/-- The canonical form two equal policies share. -/
def normalized (e : ProfileEgress) : ProfileEgress where
  mode := if e.mode = "" then "public" else e.mode
  presets := sortedUnique
    ((e.presets.map fun preset => go.toLower (trimSpaceText preset)).filter fun value => value ≠ "")
  domains := sortedUnique ((e.domains.map (normalizeDomain go)).filter fun value => value ≠ "")
  cidrs := sortedUnique
    (((e.cidrs.map trimSpaceText).filter fun value => value ≠ "").map (normalizedCIDR go))

def validateDomainPattern (domain : String) : Except String Unit := do
  let name := afterWildcard domain
  refuseIf (name.toList.contains '*') (s!"allowed domain {go.quote domain}: " ++
      "a wildcard is allowed only as the whole first label")
  refuseIf (byteLength name > 253) s!"allowed domain {go.quote domain} is longer than 253 characters"
  let labels := name.toList.splitOn '.'
  refuseIf (labels.length < 2) s!"allowed domain {go.quote domain} must have at least two labels"
  refuseSome (labels.find? fun label => !matchesDomainLabel label) fun label =>
    s!"allowed domain {go.quote domain} has an invalid label {go.quote (String.ofList label)}"
  refuseIf (go.parseAddr name).isOk
    s!"allowed domain {go.quote domain} is an address; list it as a CIDR"

/-- One entry of the loop of `Validate` over the CIDRs. -/
def validateCIDR (cidr : String) : Except String Unit :=
  match parseIPv4Destination go cidr with
  | .ok _ => pure ()
  | .error err => throw s!"allowed CIDR {go.quote cidr}: {err}"

/-- Whether the policy can be enforced as written. -/
def validate (e : ProfileEgress) : Except String Unit := do
  let e := normalized go e
  let listed := e.presets.length + e.domains.length + e.cidrs.length
  refuseIf (e.mode = "public" ∧ listed > 0)
    "public egress takes no allowlist; use audit or allowlist mode"
  refuseIf (e.mode ≠ "public" ∧ e.mode ≠ "audit" ∧ e.mode ≠ "allowlist")
    ("egress mode must be " ++ go.quote "public" ++ ", " ++ go.quote "audit" ++ " or " ++
      go.quote "allowlist")
  refuseSome (e.presets.find? fun preset => preset ≠ "github") fun preset =>
    s!"unknown egress preset {go.quote preset}; the only preset is " ++ go.quote "github"
  refuseIf (e.domains.length > maxEgressDomains)
    s!"an egress allowlist holds at most {maxEgressDomains} domains"
  refuseIf (e.cidrs.length > maxEgressCIDRs)
    s!"an egress allowlist holds at most {maxEgressCIDRs} CIDRs"
  e.domains.forM (validateDomainPattern go)
  e.cidrs.forM (validateCIDR go)
  refuseIf (e.mode = "allowlist" ∧ listed = 0)
    ("allowlist egress with nothing allowed denies GitHub itself; add the " ++
      go.quote "github" ++ " preset")

end Netpolicy

end EraInfra
