/-! # How events are classified: tactic, level and learning method -/

namespace Detection

inductive Category where
  | reconnaissance
  | initialAccess
  | execution
  | credentialAccess
  | discovery
  | lateralMovement
  | commandAndControl
  | exfiltration
  | impact
  | collection
  | defenseEvasion
  | persistence
  | privilegeEscalation
  | resourceDevelopment
  deriving DecidableEq, Repr

namespace Category

def all : List Category :=
  [.reconnaissance, .initialAccess, .execution, .credentialAccess, .discovery, .lateralMovement,
    .commandAndControl, .exfiltration, .impact, .collection, .defenseEvasion, .persistence,
    .privilegeEscalation, .resourceDevelopment]

def title : Category → String
  | .reconnaissance => "Reconnaissance"
  | .initialAccess => "InitialAccess"
  | .execution => "Execution"
  | .credentialAccess => "CredentialAccess"
  | .discovery => "Discovery"
  | .lateralMovement => "LateralMovement"
  | .commandAndControl => "CommandAndControl"
  | .exfiltration => "Exfiltration"
  | .impact => "Impact"
  | .collection => "Collection"
  | .defenseEvasion => "DefenseEvasion"
  | .persistence => "Persistence"
  | .privilegeEscalation => "PrivilegeEscalation"
  | .resourceDevelopment => "ResourceDevelopment"

def name : Category → String
  | .reconnaissance => "RECONNAISSANCE"
  | .initialAccess => "INITIAL_ACCESS"
  | .execution => "EXECUTION"
  | .credentialAccess => "CREDENTIAL_ACCESS"
  | .discovery => "DISCOVERY"
  | .lateralMovement => "LATERAL_MOVEMENT"
  | .commandAndControl => "COMMAND_AND_CONTROL"
  | .exfiltration => "EXFILTRATION"
  | .impact => "IMPACT"
  | .collection => "COLLECTION"
  | .defenseEvasion => "DEFENSE_EVASION"
  | .persistence => "PERSISTENCE"
  | .privilegeEscalation => "PRIVILEGE_ESCALATION"
  | .resourceDevelopment => "RESOURCE_DEVELOPMENT"

/-- A category may be given by its title or its name; no text is both. -/
def ofText? (text : String) : Option Category :=
  (all.find? (·.title = text)).or (all.find? (·.name = text))

end Category

inductive Level where
  | low
  | medium
  | high
  deriving DecidableEq, Repr

namespace Level

def all : List Level := [.low, .medium, .high]

def name : Level → String
  | .low => "LOW"
  | .medium => "MEDIUM"
  | .high => "HIGH"

/-- The name in lower case, as settings and tables write it. -/
def word : Level → String
  | .low => "low"
  | .medium => "medium"
  | .high => "high"

def number : Level → Nat
  | .low => 1
  | .medium => 2
  | .high => 3

end Level

inductive LearningMethod where
  | unsupervised
  | semiSupervised
  deriving DecidableEq, Repr

namespace LearningMethod

def all : List LearningMethod := [.unsupervised, .semiSupervised]

def name : LearningMethod → String
  | .unsupervised => "UNSUPERVISED"
  | .semiSupervised => "SEMI_SUPERVISED"

def title : LearningMethod → String
  | .unsupervised => "Unsupervised"
  | .semiSupervised => "SemiSupervised"

end LearningMethod

end Detection
