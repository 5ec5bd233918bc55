import AisphereHub.Proof.VisibilityCompensation
import AisphereHub.Proof.ShareAgreement
import AisphereHub.Proof.RevisionCounter
import AisphereHub.Proof.ClusterIdentity
import AisphereHub.Proof.ApiServerTarget
import AisphereHub.Proof.MergeReviewed
import AisphereHub.Proof.TreeNames
import AisphereHub.Proof.PackageRoundTrip
import AisphereHub.Proof.RefPermission
import AisphereHub.Proof.LifecycleFreeze
import AisphereHub.Proof.ReleaseTags
import AisphereHub.Proof.MetadataProjection
import AisphereHub.Proof.SkillPublic
import AisphereHub.Proof.SkillPublicRace
import AisphereHub.Proof.SkillRemoval
import AisphereHub.Proof.PolicyNames
import AisphereHub.Proof.AgentTuples
import AisphereHub.Proof.CatalogCreation
import AisphereHub.Proof.SkillReferences
import AisphereHub.Proof.ToolReuse
import AisphereHub.Proof.ToolExemption
import AisphereHub.Proof.ToolOwner
import AisphereHub.Proof.ToolImmutability
import AisphereHub.Proof.SandboxRemoval
import AisphereHub.Proof.KeyRotation
import AisphereHub.Proof.SignedPackage
import AisphereHub.Proof.ToolCapabilities
import AisphereHub.Server.ModelProbe
import AisphereHub.Proof.OutboxLeases
import AisphereHub.Proof.ProfileRevisions
import AisphereHub.Proof.ModelReferences
import AisphereHub.Proof.NamespaceOrphans
import AisphereHub.Proof.GitCredential
import AisphereHub.GitCli.Gitconfig
import AisphereHub.Proof.OutboxBackoff
import AisphereHub.Data.EndpointPolicy
import AisphereHub.Gitengine.Comparison
import AisphereHub.GitCli.Login
import AisphereHub.Proof.SkillMerging
