import Mathlib.Data.List.Infix
import Sippycup.Learn.Normalize

/-! The comparison of two behavior packs: the changes between their semantic
identities, each with its category, its path and the evidence of both packs. -/
namespace Sippycup.Learn
open Sippycup.Python

/-- A loaded pack. -/
structure Pack where
  model : JsonDict
  oracle : JsonDict

section load

@[grind =] def requireFields (d : JsonDict) (message : String) : List String → Result Unit
  | [] => .ok ()
  | name :: rest => do
    require (d.contains name) "schema" s!"{message} {name}"
    requireFields d message rest

def isArray (value : JsonValue) : Bool :=
  match value with
  | .list _ => true
  | _ => false

/-- `load_behavior_pack`, from the two documents on. -/
def loadBehaviorPack (model oracle : JsonDict) : Result Pack := do
  require ((model.find "schema").isText "sippycup.learned-dialog/v1") "schema"
    "unsupported learned dialog model"
  require ((oracle.find "schema_version").isText "sippycup.results/v1") "schema" "unsupported oracle result"
  requireFields model "canonical model is missing" ["dialog", "transactions", "sdpRevisions"]
  requireFields oracle "oracle result is missing" ["dialogs", "streams", "assertions", "verdict"]
  require (isArray (oracle.find "dialogs") && isArray (oracle.find "streams") &&
    isArray (oracle.find "assertions")) "schema" "oracle result collections must be arrays"
  return ⟨model, oracle⟩

structure NormalizedPack where
  model : SemanticModel
  oracle : SemanticOracle

/-- `normalize_behavior_pack` -/
def normalizePack (pack : Pack) : Result NormalizedPack := do
  let model ← semanticModel pack.model
  return { model, oracle := ← semanticOracle pack.oracle }

end load

section evidence

/-- The objects of a field that holds an array of objects. -/
def objectsAt (d : JsonDict) (key : Text) : List JsonDict := (objects? (getArray d key)).getD []

def isNull (value : JsonValue) : Bool :=
  match value with
  | .null => true
  | _ => false

def frameRefs (frames : List JsonValue) : List JsonValue :=
  (frames.filter fun frame => !isNull frame).map fun frame => .dict [JsonDict.entry "frame" frame]

def transactionEvidence (pack : Pack) (index : Nat) : List JsonValue :=
  match (objectsAt pack.model "transactions")[index]? with
  | some item => frameRefs (item.find "requestFrame" ::
      (objectsAt item "responses").map fun response => response.find "frame")
  | none => []

/-- Evidence of an SDP revision, or of a media packet. -/
def frameEvidence (pack : Pack) (key : Text) (index : Nat) : List JsonValue :=
  match (objectsAt pack.model key)[index]? with
  | some item => frameRefs [item.find "frame"]
  | none => []

def dialogEvidence (pack : Pack) (index : Nat) : List JsonValue :=
  match (objectsAt pack.oracle "dialogs")[index]? with
  | some item => match item.find "evidence" with
    | .dict evidence => [.dict evidence]
    | _ => []
  | none => []

def arrayOf (value : JsonValue) : List JsonValue :=
  match value with
  | .list items => items
  | _ => []

def assertionEvidence (pack : Pack) (identifier : Text) : List JsonValue :=
  match (objectsAt pack.oracle "assertions").find? fun item => (item.find "id").isText identifier with
  | some item => arrayOf (getArray item "evidence")
  | none => []

def streamEvidence (pack : Pack) (direction : Text) : List JsonValue :=
  ((objectsAt pack.oracle "streams").filter fun item => (item.find "direction").isText direction).flatMap
    fun item => arrayOf (item.find "evidence")

/-- What a `for` loop visits. -/
def iterate (value : JsonValue) : Result (List JsonValue) :=
  match value with
  | .list items => return items
  | .str text => return text.codes.map fun code => .str ⟨[code]⟩
  | .dict entries => return (JsonDict.keys entries).map .str
  | _ => .error (.builtin .typeError)

@[grind =] def verdictEvidence : List JsonDict → Result (List JsonValue)
  | [] => return []
  | item :: rest => do
    let refs ← iterate (getArray item "evidence")
    return refs ++ (← verdictEvidence rest)

end evidence

section changes

structure Change where
  category : Text
  path : Text
  baseline : JsonValue
  candidate : JsonValue
  baselineEvidence : List JsonValue
  candidateEvidence : List JsonValue

def hasPart (path part : Text) : Bool := decide (part.codes <:+: path.codes)

/-- `_category` -/
def categoryOf (path : Text) : Text :=
  if hasPart path "timingWindowMs" || hasPart path ".media.timing.observed" then "response-timing"
  else if hasPart path "assertions" then "assertion"
  else if hasPart path "codecs" || hasPart path "payloadTypes" then "codec"
  else if hasPart path "flow" || hasPart (Casing.ascii.lower path) "address" ||
    hasPart (Casing.ascii.lower path) "port" then "endpoint-topology"
  else if hasPart path "streams" || hasPart path "mediaPackets" || hasPart path "directionality" then "media"
  else if hasPart path "sdpRevisions" then "sdp"
  else if hasPart path "teardown" then "post-bye"
  else "dialog"

/-- Evidence of both sides. -/
structure Refs where
  baseline : List JsonValue
  candidate : List JsonValue

def change (path : Text) (baseline candidate : JsonValue) (refs : Refs) : Change :=
  ⟨categoryOf path, path, baseline, candidate, refs.baseline, refs.candidate⟩

def changeAs (category : Text) (path : Text) (baseline candidate : JsonValue) (refs : Refs) : Change :=
  ⟨category, path, baseline, candidate, refs.baseline, refs.candidate⟩

def child (path key : Text) : Text := path ++ ("." : Text) ++ key

def indexed (path : Text) (index : Nat) : Text :=
  path ++ ("[" : Text) ++ ⟨intCodes index⟩ ++ ("]" : Text)

/-- Changes under each key, those of the least key first. -/
def byKey (parts : List (Text × List Change)) : List Change :=
  (parts.insertionSort fun a b => a.1.le b.1 = true).flatMap Prod.snd

/-- Keys that one side lacks: `None` against a value. -/
def addedChanges (path : Text) (refs : Refs) (xs ys : JsonDict) : List (Text × List Change) :=
  (ys.filter fun entry => !xs.contains entry.1).map fun entry =>
    (entry.1, if JsonValue.null.eq entry.2 then [] else [change (child path entry.1) .null entry.2 refs])

mutual
/-- `_walk_changes` -/
@[grind =] def walkChanges (path : Text) (refs : Refs) : JsonValue → JsonValue → List Change
  | .dict xs, right =>
    if (JsonValue.dict xs).eq right then []
    else match right with
      | .dict ys => byKey (walkEntries path refs xs ys ++ addedChanges path refs xs ys)
      | right => [change path (.dict xs) right refs]
  | .list xs, right =>
    if (JsonValue.list xs).eq right then []
    else match right with
      | .list ys =>
        if xs.length = ys.length then walkItems path refs 0 xs ys
        else [change path (.list xs) (.list ys) refs]
      | right => [change path (.list xs) right refs]
  | left, right => if left.eq right then [] else [change path left right refs]

@[grind =] def walkEntries (path : Text) (refs : Refs) : List (Text × JsonValue) → JsonDict → List (Text × List Change)
  | [], _ => []
  | (key, value) :: rest, ys =>
    (key, walkChanges (child path key) refs value (ys.find key)) :: walkEntries path refs rest ys

@[grind =] def walkItems (path : Text) (refs : Refs) (index : Nat) : List JsonValue → List JsonValue → List Change
  | before :: xs, ys => match ys with
    | after :: ys => walkChanges (indexed path index) refs before after ++ walkItems path refs (index + 1) xs ys
    | [] => []
  | [], _ => []
end

end changes

section numbers

/-- `_numeric` -/
def numeric (digit : Nat → Option Nat) (value : JsonValue) : Option Decimal :=
  let value := match value with
    | .dict d => if (JsonDict.find d "state").isText "known" then JsonDict.find d "value" else .dict d
    | value => value
  match value with
  | .bool _ => none
  | value => Decimal.parse digit value.toStr

/-- `_equal_with_tolerance` -/
def equalWithTolerance (digit : Nat → Option Nat) (left right : JsonValue) (tolerance : Int) : Result Bool :=
  match numeric digit left, numeric digit right with
  | some first, some second =>
    match Decimal.rounded (first.value - second.value) with
    | some difference => return decide (|difference| ≤ tolerance)
    | none => .error (.builtin .arithmeticError)
  | _, _ => return false

end numbers

section sections

def fieldOf (value : JsonValue) (key : Text) : JsonValue :=
  match value with
  | .dict d => JsonDict.find d key
  | _ => .null

def keysOf (value : JsonValue) : List Text :=
  match value with
  | .dict d => JsonDict.keys d
  | _ => []

/-- `sorted(set(xs) | set(ys))` -/
def unionTexts (xs ys : List Text) : List Text := sortTexts (xs ++ ys).dedup

/-- Two windows, each bound within the tolerance. -/
def windowChanges (tolerance : Int) (path : Text) (before after : JsonValue) (refs : Refs) : List Change :=
  let missing := timingFields.any fun name => isNull (fieldOf before name) != isNull (fieldOf after name)
  let deltas := timingFields.filterMap fun name => match fieldOf before name, fieldOf after name with
    | .int a, .int b => some |a - b|
    | _, _ => none
  if before.eq after then []
  else if missing || deltas.isEmpty || deltas.any fun delta => tolerance < delta then
    [change path before after refs]
  else []

def afterBye (post : Bool) (changes : List Change) : List Change :=
  if post then changes.map fun item => { item with category := "post-bye" } else changes

def fieldChanges (tolerance : Int) (path : Text) (post : Bool) (before after : JsonValue) (refs : Refs)
    (field : Text) : List Change :=
  if field = "timingWindowMs" then
    windowChanges tolerance (child path field) (fieldOf before field) (fieldOf after field) refs
  else afterBye post (walkChanges (child path field) refs (fieldOf before field) (fieldOf after field))

def transactionRefs (left right : Pack) (index : Nat) : Refs :=
  ⟨transactionEvidence left index, transactionEvidence right index⟩

/-- Index of the first `BYE`, or the number of transactions. -/
def byeIndex (transactions : List JsonValue) : Nat :=
  transactions.findIdx fun item => (fieldOf item "method").isText "BYE"

@[grind =] def pairChanges (tolerance : Int) (left right : Pack) (bye : Nat) :
    Nat → List JsonValue → List JsonValue → List Change
  | index, before :: xs, after :: ys =>
    (unionTexts (keysOf before) (keysOf after)).flatMap (fieldChanges tolerance (indexed "transactions" index)
        (decide (bye < index)) before after (transactionRefs left right index)) ++
      pairChanges tolerance left right bye (index + 1) xs ys
  | _, _, _ => []

def extraChanges (left right : Pack) (bye : Nat) (xs ys : List JsonValue) : List Change :=
  (List.range' (min xs.length ys.length) (max xs.length ys.length - min xs.length ys.length)).map fun index =>
    changeAs (if bye < index then "post-bye" else "dialog") (indexed "transactions" index)
      (xs[index]?.getD .null) (ys[index]?.getD .null) (transactionRefs left right index)

def countChanges (path category : Text) (refs : Refs) (before after : Nat) : List Change :=
  if before = after then [] else [changeAs category path (.int before) (.int after) refs]

def transactionChanges (tolerance : Int) (left right : Pack) (xs ys : List JsonValue) : List Change :=
  countChanges "transactions.count" (categoryOf "transactions.count")
      ⟨transactionEvidence left (xs.length - 1), transactionEvidence right (ys.length - 1)⟩ xs.length ys.length ++
    pairChanges tolerance left right (byeIndex xs) 0 xs ys ++ extraChanges left right (byeIndex xs) xs ys

/-- Items of a list of the model, one by one: SDP revisions, or media packets. -/
@[grind =] def listChanges (key : Text) (left right : Pack) : Nat → List JsonValue → List JsonValue → List Change
  | index, before :: xs, after :: ys =>
    walkChanges (indexed key index) ⟨frameEvidence left key index, frameEvidence right key index⟩ before after ++
      listChanges key left right (index + 1) xs ys
  | _, _, _ => []

def sequenceChanges (key category : Text) (left right : Pack) (xs ys : List JsonValue) : List Change :=
  countChanges (key ++ (".count" : Text)) category
      ⟨frameEvidence left key (xs.length - 1), frameEvidence right key (ys.length - 1)⟩ xs.length ys.length ++
    listChanges key left right 0 xs ys

def directionText (stream : JsonValue) : Text := (fieldOf stream "direction").toStr

def inDirection (direction : Text) (streams : List JsonValue) : List JsonValue :=
  streams.filter fun stream => directionText stream = direction

@[grind =] def streamPairs (path : Text) (refs : Refs) : Nat → List JsonValue → List JsonValue → List Change
  | index, before :: xs, after :: ys =>
    walkChanges (indexed path index) refs before after ++ streamPairs path refs (index + 1) xs ys
  | _, _, _ => []

def directionChanges (left right : Pack) (xs ys : List JsonValue) (direction : Text) : List Change :=
  let refs : Refs := ⟨streamEvidence left direction, streamEvidence right direction⟩
  let path : Text := ("streams." : Text) ++ direction
  countChanges (path ++ (".count" : Text)) "media" refs (inDirection direction xs).length
      (inDirection direction ys).length ++
    streamPairs path refs 0 (inDirection direction xs) (inDirection direction ys)

def streamChanges (left right : Pack) (xs ys : List JsonValue) : List Change :=
  (unionTexts (xs.map directionText) (ys.map directionText)).flatMap (directionChanges left right xs ys)

def isTiming (identifier : Text) : Bool :=
  decide ((Text.ofString ".media.timing").codes <:+ identifier.codes)

/-- Whether the timing observations of two assertions are within the tolerance of each other. -/
def timingWithin (digit : Nat → Option Nat) (tolerance : Int) (identifier : Text)
    (before after : Option JsonValue) : Result Bool :=
  match before, after with
  | some before, some after =>
    if isTiming identifier && (fieldOf before "verdict").eq (fieldOf after "verdict") &&
        (fieldOf before "applicability").eq (fieldOf after "applicability") then
      equalWithTolerance digit (fieldOf before "observed") (fieldOf after "observed") tolerance
    else return false
  | _, _ => return false

def sameAssertion (before after : Option JsonValue) : Bool :=
  match before, after with
  | some before, some after => before.eq after
  | none, none => true
  | _, _ => false

def assertionChange (digit : Nat → Option Nat) (tolerance : Int) (left right : Pack) (xs ys : JsonDict)
    (identifier : Text) : Result (List Change) := do
  let before := xs.get? identifier
  let after := ys.get? identifier
  let refs : Refs := ⟨assertionEvidence left identifier, assertionEvidence right identifier⟩
  if sameAssertion before after then return []
  else if ← timingWithin digit tolerance identifier before after then return []
  else return walkChanges (child "assertions" identifier) refs (before.getD .null) (after.getD .null)

@[grind =] def assertionChanges (digit : Nat → Option Nat) (tolerance : Int) (left right : Pack) (xs ys : JsonDict) :
    List Text → Result (List Change)
  | [] => return []
  | identifier :: rest => do
    let changes ← assertionChange digit tolerance left right xs ys identifier
    return changes ++ (← assertionChanges digit tolerance left right xs ys rest)

def verdictChanges (left right : Pack) (before after : JsonValue) : Result (List Change) :=
  if before.eq after then return []
  else do
    let baseline ← verdictEvidence (objectsAt left.oracle "assertions")
    let candidate ← verdictEvidence (objectsAt right.oracle "assertions")
    return [changeAs "assertion" "oracle.verdict" before after ⟨baseline, candidate⟩]

def allDialogEvidence (pack : Pack) : List JsonValue :=
  (List.range (objectsAt pack.oracle "dialogs").length).flatMap (dialogEvidence pack)

end sections

structure Diff where
  verdict : Text
  changeCount : Nat
  categories : List (Text × Nat)
  timingToleranceMs : Int
  changes : List Change

/-- `(path, category)` orders changes. -/
def Change.before (a b : Change) : Bool :=
  a.path.lt b.path || (decide (a.path = b.path) && a.category.le b.category)

def diffOf (tolerance : Int) (changes : List Change) : Diff :=
  let sorted := changes.insertionSort fun a b => a.before b = true
  { verdict := if sorted.isEmpty then "equal" else "different"
    changeCount := sorted.length
    categories := (unionTexts (sorted.map Change.category) []).map fun category =>
      (category, sorted.countP fun item => item.category = category)
    timingToleranceMs := tolerance
    changes := sorted }

/-- The changes between two packs, in the order in which they are found. -/
def changesOf (digit : Nat → Option Nat) (tolerance : Int) (rawLeft rawRight : Pack)
    (left right : NormalizedPack) : Result (List Change) := do
  let dialog := walkChanges "dialog" ⟨dialogEvidence rawLeft 0, dialogEvidence rawRight 0⟩ left.model.dialog
    right.model.dialog
  let dialogs := walkChanges "oracle.dialogs" ⟨allDialogEvidence rawLeft, allDialogEvidence rawRight⟩
    (.list left.oracle.dialogs) (.list right.oracle.dialogs)
  let verdict ← verdictChanges rawLeft rawRight left.oracle.verdict right.oracle.verdict
  let transactions := transactionChanges tolerance rawLeft rawRight left.model.transactions
    right.model.transactions
  let revisions := sequenceChanges "sdpRevisions" "sdp" rawLeft rawRight left.model.sdpRevisions
    right.model.sdpRevisions
  let packets := sequenceChanges "mediaPackets" "media" rawLeft rawRight left.model.mediaPackets
    right.model.mediaPackets
  let streams := streamChanges rawLeft rawRight left.oracle.streams right.oracle.streams
  let assertions ← assertionChanges digit tolerance rawLeft rawRight left.oracle.assertions
    right.oracle.assertions (unionTexts left.oracle.assertions.keys right.oracle.assertions.keys)
  return dialog ++ dialogs ++ verdict ++ transactions ++ revisions ++ packets ++ streams ++ assertions

/-- `compare_behavior_packs` of two loaded packs. -/
def compareBehaviorPacks (digit : Nat → Option Nat) (rawLeft rawRight : Pack) (tolerance : Int) :
    Result Diff := do
  require (decide (0 ≤ tolerance ∧ tolerance ≤ 5000)) "timing"
    "timing tolerance must be an integer in 0..5000 ms"
  let left ← normalizePack rawLeft
  let right ← normalizePack rawRight
  return diffOf tolerance (← changesOf digit tolerance rawLeft rawRight left right)

end Sippycup.Learn
