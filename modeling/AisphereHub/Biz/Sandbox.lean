import AisphereHub.Biz.Cluster

/-! The domain types of agent sandboxes: the `k8s_sandboxes` row, what of a template
goes into a sandbox, and the view of a sandbox that is applied to a cluster. Maps from
strings to strings are lists of pairs with the key first. -/
namespace AisphereHub

open GoStrings (trimSpace fields)

inductive SandboxLifecycle where
  | CREATING
  | READY
  | SUSPENDED
  | TERMINATING
  | FAILED
  | DELETED
deriving DecidableEq

inductive SandboxNetworkMode where
  | OFFLINE
  | ONLINE
deriving DecidableEq

inductive SandboxOperatingMode where
  | Running
  | Suspended
deriving DecidableEq

/-- `chk_k8s_sandboxes_network`. -/
def SandboxNetworkMode.ofString : String → Option SandboxNetworkMode
  | "OFFLINE" => some .OFFLINE
  | "ONLINE" => some .ONLINE
  | _ => none

/-- `chk_k8s_sandboxes_operating`. -/
def SandboxOperatingMode.ofString : String → Option SandboxOperatingMode
  | "Running" => some .Running
  | "Suspended" => some .Suspended
  | _ => none

def SandboxLifecycle.toString : SandboxLifecycle → String
  | .CREATING => "CREATING"
  | .READY => "READY"
  | .SUSPENDED => "SUSPENDED"
  | .TERMINATING => "TERMINATING"
  | .FAILED => "FAILED"
  | .DELETED => "DELETED"

structure SandboxSkillRef where
  name : String
  version : String
deriving DecidableEq

structure SandboxTemplate where
  id : String
  image : String
  containerCommand : String := ""
  skills : List SandboxSkillRef := []
  deletedAt : Option Nat := none
deriving DecidableEq

structure SandboxObserved where
  kubernetesUID : String := ""
  resourceVersion : String := ""
  podName : String := ""
  podIP : String := ""
  nodeName : String := ""
  image : String := ""
deriving DecidableEq

structure Sandbox where
  id : String
  namespaceID : String
  clusterID : String
  orgID : String := ""
  name : String
  kubernetesName : String
  observed : SandboxObserved := {}
  templateID : String := ""
  warmPoolID : String := ""
  claimID : String := ""
  lifecycle : SandboxLifecycle := .CREATING
  operatingMode : SandboxOperatingMode := .Running
  networkMode : SandboxNetworkMode := .OFFLINE
  labels : List (String × String) := []
  healthMessage : String := ""
  lastSyncAt : Option Nat := none
  ownerType : String := ""
  ownerID : String := ""
  createdByType : String := ""
  createdBy : String := ""
  createdAt : Nat := 0
  updatedAt : Nat := 0
  deletedAt : Option Nat := none
  revision : Int := 1
  skills : List SandboxSkillRef := []
deriving DecidableEq

def Sandbox.live (s : Sandbox) : Bool := s.deletedAt.isNone

def SandboxTemplate.live (t : SandboxTemplate) : Bool := t.deletedAt.isNone

/-- The fields Hub owns of a `Sandbox` object. -/
structure SandboxApplySpec where
  name : String
  kubeNamespace : String
  image : String := ""
  containerCommand : List String := []
  operatingMode : SandboxOperatingMode
  labels : List (String × String) := []
  skillAnnotations : List (String × String) := []
deriving DecidableEq

def sandboxResource (sandboxID : String) : AuthzObjectRef := ⟨"k8s_sandbox", sandboxID⟩

/-- What `encoding/json` makes of a command and of the declared skills. -/
structure SandboxCodec where
  decodeArgv : String → Option (List String)
  encodeSkills : List SandboxSkillRef → String

/-- A JSON array of strings, or else words. -/
def parseContainerCommand (J : SandboxCodec) (raw : String) : List String :=
  let cmd := trimSpace raw
  if cmd = "" then []
  else
    match J.decodeArgv cmd with
    | some argv => argv
    | none => fields cmd

def addTemplateSkill (out : List SandboxSkillRef) (s : SandboxSkillRef) : List SandboxSkillRef :=
  if s.name = "" ∨ s.name ∈ out.map SandboxSkillRef.name then out else out ++ [s]

def addInlineSkill (out : List SandboxSkillRef) (s : SandboxSkillRef) : List SandboxSkillRef :=
  if s.name = "" then out
  else if s.name ∈ out.map SandboxSkillRef.name then
    out.map fun t => if t.name = s.name then s else t
  else out ++ [s]

def mergeSandboxSkills (template inline : List SandboxSkillRef) : List SandboxSkillRef :=
  inline.foldl addInlineSkill (template.foldl addTemplateSkill [])

def sandboxSkillAnnotations (J : SandboxCodec) (skills : List SandboxSkillRef) :
    List (String × String) :=
  if skills.isEmpty then [] else [("aisphere.io/skills", J.encodeSkills skills)]

/-- The label by which a policy selects the pod of a sandbox. -/
def sandboxIDLabel : String := "aisphere.io/sandbox-id"

def setLabel (labels : List (String × String)) (key value : String) : List (String × String) :=
  labels.filter (fun label => label.1 ≠ key) ++ [(key, value)]

@[simp] theorem lookup_setLabel (labels : List (String × String)) (key value : String) :
    (setLabel labels key value).lookup key = some value := by
  have gone : (labels.filter fun label => label.1 ≠ key).lookup key = none := by
    rw [List.lookup_eq_none_iff]
    intro label member
    have other := of_decide_eq_true (List.mem_filter.mp member).2
    simpa using Ne.symm other
  rw [setLabel, List.lookup_append, gone]
  simp

end AisphereHub
