import AisphereHub.Biz.Sandbox
import AisphereHub.Foundation.Keyed

/-! The part of a cluster that sandboxes touch. An object is applied on the server
side: the fields Hub applied before are replaced, those of other managers stay unless
Hub now claims them. Only DNS names are accepted, so that characters count as bytes. -/
namespace AisphereHub

/-- `applied` are Hub's fields, `foreignLabels` the labels of other managers. -/
structure RemoteSandbox where
  clusterID : String
  kubeNamespace : String
  name : String
  applied : Option SandboxApplySpec := none
  foreignLabels : List (String × String) := []
  observed : SandboxObserved := {}
deriving DecidableEq

/-- A `CiliumNetworkPolicy` that denies all egress of the pods with one sandbox id. -/
structure EgressPolicy where
  clusterID : String
  kubeNamespace : String
  name : String
  sandboxID : String
deriving DecidableEq

def RemoteSandbox.key (o : RemoteSandbox) : String × String × String :=
  (o.clusterID, o.kubeNamespace, o.name)

def EgressPolicy.key (p : EgressPolicy) : String × String × String :=
  (p.clusterID, p.kubeNamespace, p.name)

def RemoteSandbox.labels (o : RemoteSandbox) : List (String × String) :=
  (o.applied.elim [] SandboxApplySpec.labels) ++ o.foreignLabels

def RemoteSandbox.patched (o : RemoteSandbox) (spec : SandboxApplySpec) : RemoteSandbox :=
  { o with
    applied := some spec
    foreignLabels := o.foreignLabels.filter fun label => label.1 ∉ spec.labels.map Prod.fst }

def applySandbox (remote : List RemoteSandbox) (clusterID : String) (spec : SandboxApplySpec) :
    List RemoteSandbox :=
  match Keyed.lookup RemoteSandbox.key remote (clusterID, spec.kubeNamespace, spec.name) with
  | some _ => Keyed.amend RemoteSandbox.key remote (clusterID, spec.kubeNamespace, spec.name)
      fun o => o.patched spec
  | none => remote ++ [⟨clusterID, spec.kubeNamespace, spec.name, some spec, [], {}⟩]

def listRemoteSandboxes (remote : List RemoteSandbox) (clusterID kubeNamespace : String) :
    List RemoteSandbox :=
  remote.filter fun o => o.clusterID = clusterID ∧ o.kubeNamespace = kubeNamespace

def truncateDNS1123 (s : String) : String :=
  if s.toList.length ≤ 63 then s else String.ofList (s.toList.take 63)

def egressPolicyName (sandboxKubeName : String) : String :=
  truncateDNS1123 ("aisphere-egress-deny-" ++ sandboxKubeName)

/-- ONLINE removes the policy of that name, OFFLINE puts one in its place. -/
def applySandboxEgressPolicy (policies : List EgressPolicy)
    (clusterID kubeNamespace sandboxKubeName sandboxID : String) :
    SandboxNetworkMode → List EgressPolicy
  | .ONLINE => Keyed.remove EgressPolicy.key policies
      (clusterID, kubeNamespace, egressPolicyName sandboxKubeName)
  | .OFFLINE => Keyed.remove EgressPolicy.key policies
      (clusterID, kubeNamespace, egressPolicyName sandboxKubeName) ++
        [⟨clusterID, kubeNamespace, egressPolicyName sandboxKubeName, sandboxID⟩]

end AisphereHub
