import Sippycup.Python.Sha256
import Sippycup.Python.JsonLoads
import Sippycup.Python.PosixPath

/-! Portable evidence packs and their verification. An archive is the list of its
members, as the tar reader presents them; what is found wrong with one is a list of
messages. -/
namespace Sippycup.Evidence
open Sippycup.Python Sippycup.Ip

def manifestVersion : String := "sippycup.dev/evidence-manifest/v1"
def manifestName : String := "evidence-manifest.json"
def packVersion : String := "sippycup.dev/evidence-pack/v1"
def packName : String := "pack-manifest.json"
def maxManifestBytes : Nat := 4 * 1024 * 1024
def maxMembers : Nat := 10000

/-- Own errors are those of the archive: `OSError` and `TarError`, by their texts. -/
abbrev Reading := Except (Raised Text)

/-- The message of a check that does not hold. -/
def require (holds : Bool) (message : Text) : List Text := if holds then [] else [message]

@[simp] theorem require_nil {holds : Bool} {message : Text} : require holds message = [] ↔ holds = true := by
  cases holds <;> simp [require]

/-- A name as the reader decodes it: a byte that is not UTF-8 becomes a low surrogate. -/
def Decoded (t : Text) : Prop := ∀ code ∈ t.codes, isUnpaired code

instance (t : Text) : Decidable (Decoded t) :=
  inferInstanceAs (Decidable (∀ code ∈ t.codes, isHigh code = false ∧ code < 0x110000))

/-- A member; `content` is what reading it gives. -/
structure Member where
  name : Text
  decoded : Decoded name
  isFile : Bool
  mode : Int
  uid : Int
  gid : Int
  uname : Text
  gname : Text
  mtime : Number
  size : Int
  content : Reading (List Nat)

def isSafePart (part : Codes) : Bool := !decide (part = [] ∨ part = [dot] ∨ part = [dot, dot])

def isSafeCode (code : Nat) : Bool := !decide (code = 92 ∨ code < 32 ∨ code = 127)

def isSafe (t : Text) : Bool := t.codes.all isSafeCode && (t.codes.splitOn slash).all isSafePart

/-- `_safe_relative`; a path without an empty part is not absolute. -/
def safeRelative (value : JsonValue) : Except Text Text :=
  match value with
  | .str t =>
    if isSafe t then .ok ⟨asPosix t.codes⟩ else .error ("unsafe artifact path " ++ ⟨value.repr⟩)
  | _ => .error ("unsafe artifact path " ++ ⟨value.repr⟩)

def isPlain (m : Member) : Bool :=
  decide (m.mode = 0o600 ∧ m.uid = 0 ∧ m.gid = 0 ∧ m.uname = "" ∧ m.gname = "") && m.mtime.eq (.int 0)

/-- The first loop of `_manifest_from_archive`, with the names seen so far. -/
def memberErrors : List Text → List Member → List Text
  | _, [] => []
  | names, m :: rest =>
    match safeRelative (.str m.name) with
    | .error message => message :: memberErrors names rest
    | .ok name =>
      require (name ∉ names) ("duplicate archive member: " ++ name) ++
      require m.isFile ("archive member is not a regular file: " ++ name) ++
      require (isPlain m) ("archive member metadata is non-canonical: " ++ name) ++
      memberErrors (name :: names) rest

/-- `sha256:` and 64 lowercase hex digits. -/
def isDigest (value : JsonValue) : Bool :=
  match value with
  | .str t =>
    (Text.ofString "sha256:").codes.isPrefixOf t.codes && decide (t.length = 71) &&
      (t.codes.drop 7).all isHexCode
  | _ => false

def packKeys : List String := ["apiVersion", "kind", "contentIdentity", "artifacts", "supplyChain"]
def artifactKeys : List String := ["path", "mediaType", "size", "sha256", "provenance", "sensitivity"]

/-- An artifact's path, of a dict that has one. -/
def pathOf? : JsonValue → Option Text
  | .dict d => (JsonDict.find d "path").text?
  | _ => none

def orderErrors (artifacts : JsonValue) (members : List Member) : List Text :=
  match artifacts with
  | .list items =>
    match items.mapM pathOf? with
    | some paths =>
      require (members.map Member.name = Text.ofString packName :: paths)
        "archive member order differs from canonical pack"
    | none => []
  | _ => []

def sbomInvalid (value : JsonValue) : Bool :=
  match value with
  | .dict sbom =>
    !(JsonDict.find sbom "format").isText "SPDX" || !(JsonDict.find sbom "spdxVersion").isText "SPDX-2.3" ||
      (match JsonDict.find sbom "packages" with
        | .list packages => packages.isEmpty
        | _ => true)
  | _ => true

def supplyChainErrors (value : JsonValue) : List Text :=
  match value with
  | .dict supply =>
    if keysAre supply ["imageDigest", "sbom"] then
      require (isDigest (JsonDict.find supply "imageDigest")) "pack image digest is invalid" ++
      require (!sbomInvalid (JsonDict.find supply "sbom")) "pack SBOM record is invalid"
    else ["pack supply-chain record is invalid"]
  | _ => ["pack supply-chain record is invalid"]

def packErrors (d : JsonDict) (members : List Member) : List Text :=
  require (keysAre d packKeys && (d.find "kind").isText "PortableEvidencePack")
    "pack manifest has invalid fields" ++
  orderErrors (d.find "artifacts") members ++
  require (isDigest (d.find "contentIdentity")) "pack content identity is invalid" ++
  supplyChainErrors (d.find "supplyChain")

/-- `_manifest_from_archive` -/
def manifestFromArchive (members : List Member) : Reading (Option JsonDict × List Text) := do
  let errors := memberErrors [] members
  let refuse (message : Text) : Reading (Option JsonDict × List Text) := .ok (none, errors ++ [message])
  match members.filter fun m => m.name = Text.ofString packName with
  | [m] =>
    if !m.isFile then refuse "archive must contain one regular pack-manifest.json"
    else if (maxManifestBytes : Int) < m.size then refuse "pack manifest exceeds 4 MiB"
    else
      match Json.loadsBytes (← m.content) with
      | .error (.own message) => refuse ("invalid pack manifest JSON: " ++ message)
      | .error (.builtin kind) => .error (.builtin kind)
      | .ok (.dict d) =>
        if (JsonDict.find d "apiVersion").isText packVersion then
          return (some d, errors ++ packErrors d members)
        else refuse "unsupported pack manifest"
      | .ok _ => refuse "unsupported pack manifest"
  | _ => refuse "archive must contain one regular pack-manifest.json"

def sensitivities : List Text := ["public", "internal", "confidential", "restricted"]

def isNamed (value : JsonValue) : Bool :=
  match value with
  | .str t => !t.codes.isEmpty
  | _ => false

def metadataInvalid (d : JsonDict) : Reading Bool :=
  if !isNamed (d.find "mediaType") ∨ !isNamed (d.find "provenance") then .ok true
  else do return !(← (d.find "sensitivity").inSet sensitivities)

/-- The loop over the declared artifacts: what is wrong, and the items by their paths. -/
def declare : List (Text × JsonDict) → List JsonValue → Reading (List Text × List (Text × JsonDict))
  | declared, [] => .ok ([], declared)
  | declared, item :: rest => do
    match item with
    | .dict d =>
      if !keysAre d artifactKeys then
        let (errors, declared) ← declare declared rest
        return ("declared artifact must be an object" :: errors, declared)
      else
        match safeRelative (JsonDict.find d "path") with
        | .error message =>
          let (errors, declared) ← declare declared rest
          return (message :: errors, declared)
        | .ok relative =>
          if relative = Text.ofString packName ∨ relative ∈ declared.map Prod.fst then
            let (errors, declared) ← declare declared rest
            return ((Text.ofString "duplicate or reserved declared artifact: " ++ relative) :: errors, declared)
          else
            let invalid ← metadataInvalid d
            let (errors, declared) ← declare (declared ++ [(relative, d)]) rest
            return (require (!invalid) ("invalid declared metadata: " ++ relative) ++ errors, declared)
    | _ =>
      let (errors, declared) ← declare declared rest
      return ("declared artifact must be an object" :: errors, declared)

/-- The regular members other than the pack manifest. -/
def actual (members : List Member) : List Member :=
  members.filter fun m => decide (m.name ≠ Text.ofString packName) && m.isFile

/-- Of the members with a name the last one. -/
def named? (members : List Member) (name : Text) : Option Member :=
  (actual members).reverse.find? fun m => decide (m.name = name)

def memberErrorsOf (relative : Text) (item : JsonDict) (m : Member) : Reading (List Text) := do
  match item.find "size" with
  | .int expected =>
    if expected < 0 then return ["invalid declared size: " ++ relative]
    else if m.size ≠ expected then return ["artifact size differs: " ++ relative]
    else
      let data ← m.content
      if (data.length : Int) ≠ expected ∨ !(item.find "sha256").isText (sha256Hex data) then
        return ["artifact hash differs: " ++ relative]
      else return []
  | _ => return ["invalid declared size: " ++ relative]

def checkContent (members : List Member) (relative : Text) (item : JsonDict) : Reading (List Text) :=
  match named? members relative with
  | some m => memberErrorsOf relative item m
  | none => .ok []

def contentErrors (members : List Member) : List (Text × JsonDict) → Reading (List Text)
  | [] => .ok []
  | (relative, item) :: rest => do
    let errors ← checkContent members relative item
    return errors ++ (← contentErrors members rest)

/-- The text that identifies the content of an inventory. -/
def identityText (inventory missing : List JsonValue) : Codes :=
  (JsonValue.dict [("schema", .str manifestVersion), ("artifacts", .list inventory),
    ("missingExpected", .list missing)]).canonical

def contentIdentity (inventory missing : List JsonValue) : Text :=
  "sha256:" ++ sha256Hex (identityText inventory missing)

/-- The record of the evidence manifest itself. -/
def evidenceRecord (raw : List Nat) : JsonDict :=
  [("path", .str manifestName), ("mediaType", .str "application/json"), ("size", .int raw.length),
    ("sha256", .str (sha256Hex raw)), ("provenance", .str "evidence-inventory"),
    ("sensitivity", .str "internal")]

/-- The inventory and the missing artifacts of an evidence manifest. -/
def evidenceOf? (value : JsonValue) : Option (JsonDict × List JsonValue × List JsonValue) :=
  match value with
  | .dict evidence =>
    if (JsonDict.find evidence "apiVersion").isText manifestVersion then
      match JsonDict.find evidence "artifacts", JsonDict.find evidence "missingExpected" with
      | .list inventory, .list missing => some (evidence, inventory, missing)
      | _, _ => none
    else none
  | _ => none

def evidenceErrors (manifest : JsonDict) (artifacts : List JsonValue) (members : List Member) :
    Reading (List Text) := do
  match named? members manifestName with
  | none => return ["embedded evidence manifest is missing or excessive"]
  | some m =>
    if (maxManifestBytes : Int) < m.size then
      return ["embedded evidence manifest is missing or excessive"]
    else
      let raw ← m.content
      match Json.loadsBytes raw with
      | .error (.own message) => return ["invalid embedded evidence manifest: " ++ message]
      | .error (.builtin kind) => .error (.builtin kind)
      | .ok value =>
        match evidenceOf? value with
        | none => return ["embedded evidence manifest has invalid structure"]
        | some (evidence, inventory, missing) =>
          let identity := contentIdentity inventory missing
          let records := JsonValue.dict (evidenceRecord raw) :: inventory
          return require ((evidence.find "contentIdentity").isText identity)
              "embedded evidence content identity differs" ++
            require ((manifest.find "contentIdentity").isText identity) "pack content identity differs" ++
            require ((JsonValue.list artifacts).eq (.list records))
              "pack artifact inventory differs from embedded evidence"

def artifactErrors (manifest : JsonDict) (artifacts : List JsonValue) (members : List Member) :
    Reading (List Text) := do
  let (invalid, declared) ← declare [] artifacts
  let names := (actual members).map Member.name
  let missing := sortTexts ((declared.map Prod.fst).filter fun name => name ∉ names)
  let extra := sortTexts (names.dedup.filter fun name => name ∉ declared.map Prod.fst)
  let common := (sortTexts ((declared.map Prod.fst).filter fun name => name ∈ names)).filterMap fun name =>
    (declared.lookup name).map fun item => (name, item)
  let content ← contentErrors members common
  let embedded ← evidenceErrors manifest artifacts members
  return invalid ++ missing.map (fun name => Text.ofString "missing declared artifact: " ++ name) ++
    extra.map (fun name => Text.ofString "undeclared archive member: " ++ name) ++ content ++ embedded

def inspect (members : List Member) : Reading (Option JsonDict × List Text) := do
  if maxMembers < members.length then return (none, ["archive contains too many members"])
  else
    let (manifest, errors) ← manifestFromArchive members
    match manifest with
    | none => return (none, errors)
    | some d =>
      match d.find "artifacts" with
      | .list artifacts => return (some d, errors ++ (← artifactErrors d artifacts members))
      | _ => return (some d, errors ++ [Text.ofString "pack manifest artifacts must be an array"])

/-- `_verify_content` -/
def verifyContent (archive : Reading (List Member)) : Except Builtin (Option JsonDict × List Text) :=
  match archive >>= inspect with
  | .ok (manifest, errors) => .ok (manifest, sortTexts errors.dedup)
  | .error (.own message) => .ok (none, ["invalid evidence archive: " ++ message])
  | .error (.builtin kind) => .error kind

end Sippycup.Evidence
