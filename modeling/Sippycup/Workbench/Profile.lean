import Sippycup.Python.PosixPath

/-! Target profiles and their rehearsal. Every check adds to a list of errors
and the next one goes on with the value it refused; a profile is ready when the
list stays empty. -/
namespace Sippycup.Workbench
open Sippycup.Python Sippycup.Ip

/-- Microseconds from the year 1 to the end of the year 9999. -/
def timeLimit : Int := 3652059 * 86400 * 1000000

/-- A `datetime`: what its fields say, and the offset of its zone. -/
structure Datetime where
  fields : Int
  offset : Option Int

/-- An aware `datetime`. -/
structure Aware where
  fields : Int
  offset : Int

/-- What is used of the interpreter and of the values that a YAML loader gives
beyond those of JSON: whether values of a kind can be hashed, are true, and
whether `ipaddress.ip_address` takes them. -/
structure Library where
  fromisoformat : Text → Option Datetime
  frozen : Nat → Bool
  truthy : Nat → Text → Bool
  literal : Nat → Text → Bool

def profileVersion : Text := "sippycup.dev/target-profile/v1"

def topLevelFields : List String :=
  ["schema_version", "name", "target", "authorization", "limits", "capture", "features"]

def targetFields : List String := ["host", "port", "transport", "approved_addresses"]

def authorizationFields : List String := ["status", "approved_by", "approval_id", "valid_from", "valid_until"]

def limitFields : List String := ["max_calls", "max_concurrency", "max_calls_per_second", "max_duration_seconds"]

def captureFields : List String := ["interface", "output"]

def featureFields : List String := ["ice", "turn", "srtp", "dtls_srtp", "webrtc"]

structure Sections where
  target : Dict
  authorization : Dict
  limits : Dict
  capture : Dict
  features : Dict

/-- The sections with their names and fields, in the order they are checked. -/
def Sections.all (sections : Sections) : List (String × Dict × List String) :=
  [("target", sections.target, targetFields), ("authorization", sections.authorization, authorizationFields),
    ("limits", sections.limits, limitFields), ("capture", sections.capture, captureFields),
    ("features", sections.features, featureFields)]

structure Facts where
  profileName : Value
  host : Value
  port : Value
  transport : Value
  approvedAddresses : List Value
  status : Value
  approvedBy : Value
  approvalIdPresent : Bool
  validFrom : Option Int
  validUntil : Option Int
  limits : Dict
  capture : Dict
  features : Dict

structure Rehearsal where
  ready : Bool
  errors : List String
  warnings : List String
  facts : Option Facts

/-- A check that reports an error. -/
def check (holds : Bool) (reason : String) : List String := if holds then [] else [reason]

section rehearse
variable (library : Library)

def hashable : Value → Bool
  | .other kind _ => library.frozen kind
  | value => value.hashable

def truthy : Value → Bool
  | .other kind content => library.truthy kind content
  | value => value.truthy

/-- `ipaddress.ip_address` returns. -/
def isAddress : Value → Bool
  | .other kind content => library.literal kind content
  | value => (ipAddress value).isSome

/-- `value in {names}` -/
def oneOf (value : Value) (names : List String) : Except Builtin Bool :=
  if hashable library value then .ok (names.any fun name => value.isText name) else .error .typeError

/-- `f"unknown {kind}: {', '.join(sorted(unknown))}"`, if there is any. -/
def unknownErrors (kind : String) (section_ : Dict) (known : List String) : Except Builtin (List String) :=
  let unknown := unknownKeys section_ known
  if unknown = [] then .ok []
  else
    match (do joinTexts (← sortedKeys unknown) : Except (Raised Empty) String) with
    | .ok names => .ok [s!"unknown {kind}: {names}"]
    | .error (.builtin failure) => .error failure

def sectionErrors : List (String × Dict × List String) → Except Builtin (List String)
  | [] => .ok []
  | (name, section_, known) :: rest => do
    let first ← unknownErrors (name ++ " fields") section_ known
    let others ← sectionErrors rest
    return first ++ others

def mapping (document : Dict) (key : String) : Except String Dict :=
  match document.get? key with
  | some (.dict value) => .ok value
  | _ => .error s!"{key} must be an object"

def sections (document : Dict) : Except String Sections := do
  let target ← mapping document "target"
  let authorization ← mapping document "authorization"
  let limits ← mapping document "limits"
  let capture ← mapping document "capture"
  let features ← mapping document "features"
  return { target, authorization, limits, capture, features }

def isAlnum (code : Nat) : Bool := isDigit code || isLower code || decide (65 ≤ code ∧ code ≤ 90)

/-- `[A-Za-z0-9][A-Za-z0-9_. -]{0,63}` -/
def safeName : Value → Bool
  | .str ⟨first :: rest⟩ => isAlnum first && decide (rest.length ≤ 63) &&
      rest.all fun code => isAlnum code || [95, 46, 32, 45].contains code
  | _ => false

/-- `[A-Za-z0-9._:-]{1,253}`, without a dash in front. -/
def safeHost : Value → Bool
  | .str ⟨codes⟩ => decide (1 ≤ codes.length ∧ codes.length ≤ 253) &&
      (codes.all fun code => isAlnum code || [46, 95, 58, 45].contains code) && decide (codes.head? ≠ some 45)
  | _ => false

/-- `type(value) is int`, within bounds. -/
def integerFrom (least : Int) (value : Value) : Bool :=
  match value with
  | .int n => decide (least ≤ n)
  | _ => false

def safePort (value : Value) : Bool :=
  match value with
  | .int n => decide (1 ≤ n ∧ n ≤ 65535)
  | _ => false

/-- `len(set(values))` is that of the list. -/
def distinct : List Value → Bool
  | [] => true
  | value :: rest => !(rest.any fun other => Value.eq value other) && distinct rest

/-- The errors of the approved addresses, and what the later checks take for them. -/
def addressErrors (addresses : Value) : Except Builtin (List String × List Value) :=
  match addresses with
  | .list items =>
    let literal := check (items.all (isAddress library)) "approved_addresses must contain only literal IP addresses"
    if items.all (hashable library) then
      .ok (literal ++ check (distinct items) "approved_addresses must be unique", items)
    else .error .typeError
  | _ => .ok (["target.approved_addresses must be a list"], [])

/-- `f"{status or 'missing'}"`; an integer that is too long cannot be written,
the one text that is not written there always can. -/
def writtenStatus (status : Value) : Except Builtin String :=
  match status with
  | .int n => if n.natAbs < 10 ^ Json.maxStrDigits then .ok (if n = 0 then "missing" else status.str'.render)
      else .error .valueError
  | _ => .ok (if truthy library status then status.str'.render else "missing")

def approved (status : Value) : Bool := status.isText "approved"

def statusErrors (status approvalId approvedBy : Value) (addresses : List Value) : Except Builtin (List String) := do
  let known ← oneOf library status ["pending", "approved", "revoked", "expired"]
  let id := (approvalId.text?).getD ""
  let written ← writtenStatus library status
  return check known "authorization.status is invalid" ++
    check approvalId.text?.isSome "authorization.approval_id must be a string" ++
    check (!(approved status && id.codes.isEmpty)) "approved profiles require authorization.approval_id" ++
    check (approvedBy.text?.any fun name => !name.strip.codes.isEmpty)
      "authorization.approved_by must be a non-empty string" ++
    check (approved status) s!"authorization is {written}, not approved" ++
    check (!addresses.isEmpty) "at least one literal approved address is required"

/-- `astimezone(timezone.utc)` -/
def astimezone (time : Aware) : Except (Raised String) Int :=
  let instant := time.fields - time.offset
  if 0 ≤ instant ∧ instant < timeLimit then .ok instant else .error (.builtin .overflowError)

/-- `value.replace("Z", "+00:00")` -/
def zoned (text : Text) : Text :=
  ⟨text.codes.flatMap fun code => if code = 90 then ("+00:00" : Text).codes else [code]⟩

/-- `_parse_time` -/
def parseTime (value : Value) (field : String) : Except (Raised String) (Option Int) :=
  match value with
  | .none => .ok none
  | .str text =>
    if text.codes = [] then .error (.own s!"{field} must be an RFC 3339 timestamp or null")
    else
      match library.fromisoformat (zoned text) with
      | none => .error (.own s!"{field} must be an RFC 3339 timestamp")
      | some ⟨_, none⟩ => .error (.own s!"{field} must include a timezone")
      | some ⟨fields, some offset⟩ => do return some (← astimezone ⟨fields, offset⟩)
  | _ => .error (.own s!"{field} must be an RFC 3339 timestamp or null")

structure Times where
  errors : List String
  validFrom : Option Int
  validUntil : Option Int

/-- The two times; an error of either loses both. -/
def times (validFrom validUntil : Value) : Except Builtin Times :=
  match (do
    let start ← parseTime library validFrom "authorization.valid_from"
    let stop ← parseTime library validUntil "authorization.valid_until"
    return (start, stop) : Except (Raised String) (Option Int × Option Int)) with
  | .ok (start, stop) => .ok ⟨[], start, stop⟩
  | .error (.own reason) => .ok ⟨[reason], none, none⟩
  | .error (.builtin failure) => .error failure

def timeErrors (instant : Int) (status : Value) (times : Times) : List String :=
  times.errors ++
    check (times.validFrom.all fun start => start ≤ instant) "authorization is not valid yet" ++
    check (times.validUntil.all fun stop => instant < stop) "authorization has expired" ++
    check (!(approved status && times.validUntil.isNone)) "approved profiles require authorization.valid_until" ++
    check (times.validFrom.all fun start => times.validUntil.all fun stop => start < stop)
      "authorization.valid_from must precede valid_until"

def calls (limits : Dict) : Value := limits.getD "max_calls" .none

def concurrency (limits : Dict) : Value := limits.getD "max_concurrency" .none

def withinCalls (limits : Dict) : Bool :=
  match concurrency limits, calls limits with
  | .int concurrent, .int most => decide (concurrent ≤ most)
  | _, _ => true

def limitErrors (limits : Dict) : List String :=
  (limitFields.flatMap fun (field : String) =>
    check (integerFrom 1 (limits.getD field .none)) s!"limits.{field} must be an integer >= 1") ++
    check (withinCalls limits) "max_concurrency cannot exceed max_calls"

/-- `[A-Za-z0-9_.:-]+`, without a dash in front. -/
def safeInterface : Value → Bool
  | .str ⟨codes⟩ => decide (codes ≠ []) && decide (codes.head? ≠ some 45) &&
      codes.all fun code => isAlnum code || [95, 46, 58, 45].contains code
  | _ => false

/-- `PurePath.suffix` of the last part. -/
def suffix (codes : Codes) : Codes :=
  let name := (pathParts codes).getLastD []
  let stem := name.reverse.dropWhile (· ≠ dot)
  let suffix := (name.reverse.takeWhile (· ≠ dot)).reverse
  if stem.length ≤ 1 ∨ suffix = [] then [] else dot :: suffix

/-- `lower()`, of the letters that matter here. -/
def lowerAscii (codes : Codes) : Codes := codes.map fun code => if 65 ≤ code ∧ code ≤ 90 then code + 32 else code

def captureSuffixes : List Codes := [Text.codes ".pcap", Text.codes ".pcapng"]

def safeOutput (codes : Codes) : Bool :=
  (Text.codes "work/").isPrefixOf codes && decide ([dot, dot] ∉ pathParts codes) &&
    captureSuffixes.contains (lowerAscii (suffix codes))

def outputErrors : Value → List String
  | .str ⟨code :: rest⟩ => check (safeOutput (code :: rest))
      "capture.output must be a relative work/*.pcap or work/*.pcapng path"
  | _ => ["capture.output is required"]

def isBool : Value → Bool
  | .bool _ => true
  | _ => false

/-- The features are checked in the order of a set, which is taken for that of their names here. -/
def featureErrors (features : Dict) : List String :=
  (featureFields.flatMap fun (field : String) =>
    check ((features.get? field).all isBool) s!"features.{field} must be boolean") ++
    check (!(truthy library (features.getD "dtls_srtp" .none) && !truthy library (features.getD "srtp" .none)))
      "DTLS-SRTP requires features.srtp"

def warnings (limits features : Dict) : List String :=
  check (Value.eq (calls limits) (.int 1) && Value.eq (concurrency limits) (.int 1))
      "this is not a one-call profile" ++
    check (!(truthy library (features.getD "turn" .none) && !truthy library (features.getD "ice" .none)))
      "TURN is enabled without ICE; confirm this is intentional"

def instantOf (now : Aware) : Except Builtin Int :=
  match astimezone now with
  | .ok instant => .ok instant
  | .error _ => .error .overflowError

/-- `rehearse`, once the sections are there. -/
def rehearseSections (document : Dict) (found : Sections) (now : Aware) (before : List String) :
    Except Builtin Rehearsal := do
  let unknown ← sectionErrors found.all
  let host := found.target.getD "host" .none
  let port := found.target.getD "port" .none
  let transport := found.target.getD "transport" .none
  let carried ← oneOf library transport ["udp", "tcp", "tls"]
  let (literal, addresses) ← addressErrors library (found.target.getD "approved_addresses" .none)
  let status := found.authorization.getD "status" .none
  let approvalId := found.authorization.getD "approval_id" .none
  let approvedBy := found.authorization.getD "approved_by" .none
  let standing ← statusErrors library status approvalId approvedBy addresses
  let valid ← times library (found.authorization.getD "valid_from" .none)
    (found.authorization.getD "valid_until" .none)
  let instant ← instantOf now
  let features ← unknownErrors "features" found.features featureFields
  let errors := before ++ unknown ++ check (safeHost host) "target.host is invalid" ++
    check (safePort port) "target.port must be an integer from 1 to 65535" ++
    check carried "target.transport must be udp, tcp, or tls" ++ literal ++ standing ++
    timeErrors instant status valid ++ limitErrors found.limits ++
    check (safeInterface (found.capture.getD "interface" .none)) "capture.interface is invalid" ++
    outputErrors (found.capture.getD "output" .none) ++ features ++ featureErrors library found.features
  return {
    ready := errors.isEmpty
    errors
    warnings := warnings library found.limits found.features
    facts := some {
      profileName := document.getD "name" .none, host, port, transport, approvedAddresses := addresses, status
      approvedBy, approvalIdPresent := approvalId.text?.any fun id => !id.codes.isEmpty
      validFrom := valid.validFrom, validUntil := valid.validUntil
      limits := found.limits, capture := found.capture, features := found.features } }

def rehearse (document : Dict) (now : Aware) : Except Builtin Rehearsal := do
  let unknown ← unknownErrors "top-level fields" document topLevelFields
  let before := check (Value.eq (document.getD "schema_version" .none) (.str profileVersion))
      "unsupported or missing schema_version" ++ unknown ++
    check (safeName (document.getD "name" .none)) "name must be 1-64 safe display characters"
  match sections document with
  | .error reason => return { ready := false, errors := [reason], warnings := [], facts := none }
  | .ok found => rehearseSections library document found now before

end rehearse

end Sippycup.Workbench
