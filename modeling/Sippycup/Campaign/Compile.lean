import Sippycup.Campaign.Cases

/-! The campaign compiler: from a manifest and the answers of a resolver to a
frozen plan. -/
namespace Sippycup.Campaign
open Sippycup.Python Sippycup.Ip
open Sippycup.Runtime (Quantity Amounts MediaPorts ceilingKeys totalKeys StepType addressKey keyLe)

structure Evidence where
  capture : Bool
  retainPayload : Bool
  directory : Text

/-- Neither absolute nor with a parent component, as `pathlib` splits a path. -/
def safeRelative (directory : Text) : Bool :=
  decide (directory.codes.head? ≠ some slash ∧ [dot, dot] ∉ directory.codes.splitOn slash)

def readEvidence (manifest : Dict) : Result Evidence := do
  let evidence ← mapping (field? manifest "evidence") "evidence"
  keys evidence "evidence" ["capture", "retainPayload", "directory"]
  let capture ← boolean (field? evidence "capture") "evidence.capture must be a boolean"
  let retainPayload ← boolean (field? evidence "retainPayload") "evidence.retainPayload must be a boolean"
  let directory ← string (field? evidence "directory") "evidence.directory"
  if safeRelative directory then return { capture, retainPayload, directory }
  else fail "evidence.directory must be a safe relative path"

/-- A transport with a port. -/
abbrev Service := Text × Nat

def serviceLe (a b : Service) : Prop := a.1.lt b.1 = true ∨ a.1 = b.1 ∧ a.2 ≤ b.2

instance (a b : Service) : Decidable (serviceLe a b) := inferInstanceAs (Decidable (_ ∨ _))

def serviceTerm (service : Service) : Text :=
  (if service.1 = Text.ofString "udp" then Text.ofString "udp port " else "tcp port ") ++
    (Text.ofString (toString service.2))

def mediaTerm (media : MediaPorts) : Text := Text.ofString s!"udp portrange {media.start}-{media.stop}"

/-- Services at an address, as `sorted` of their set gives them. -/
def servicesAt (destinations : List Destination) (address : Text) : List Service :=
  ((destinations.filter fun d => decide (d.address = address)).map fun d =>
    (d.transport, d.port)).dedup.insertionSort serviceLe

def captureScope (media : MediaPorts) (destinations : List Destination) (address : Text) : Text :=
  "(host " ++ address ++ (" and (" : Text) ++
    Text.join " or " ((servicesAt destinations address).map serviceTerm ++ [mediaTerm media]) ++ ("))" : Text)

/-- One clause for each address that some step uses. -/
def captureFilter (order : SetOrder) (media : MediaPorts) (destinations : List Destination) : Text :=
  Text.join " or " ((order.sorted (destinations.map Destination.address)).map
    (captureScope media destinations))

structure CampaignPlan where
  name : Text
  manifestSha256 : Text
  authorization : Authorization
  targets : List Target
  captureFilter : Text
  expectations : Expectations
  evidence : Evidence
  plannedTotals : Amounts
  cases : List Case

def destinationsOf (targets : List Target) : List Destination := targets.flatMap Target.destinations

/-- Destinations of the targets that some case uses. -/
def usedDestinations (targets : List Target) (cases : List Case) : List Destination :=
  (destinationsOf targets).filter fun d => cases.any fun c => decide (c.target.name = d.target)

def compilePlan (casing : Casing) (order : SetOrder) (resolver : Resolver) (manifest : Dict) (digest : Text)
    (reductions : Reductions) : Result CampaignPlan := do
  checkHeader manifest
  let name ← campaignName manifest
  let authorization ← readAuthorization manifest reductions
  let rawTargets ← list (field? manifest "targets") "targets"
  let targets ← readTargets casing order resolver authorization 0 [] rawTargets
  let expectations ← readExpectations manifest
  let rawCases ← list (field? manifest "cases") "cases"
  let (cases, progress) ← readCases authorization targets 0 .initial rawCases
  checkTotals authorization.hardMaxima progress.totals totalKeys
  let evidence ← readEvidence manifest
  let filter := captureFilter order authorization.mediaPorts (usedDestinations targets cases)
  return { name, manifestSha256 := digest, authorization, targets, captureFilter := filter, expectations
           evidence, plannedTotals := progress.totals, cases }

namespace CampaignPlan
variable (plan : CampaignPlan)

def steps : List Step := stepsFrom 0 plan.cases

end CampaignPlan

end Sippycup.Campaign
