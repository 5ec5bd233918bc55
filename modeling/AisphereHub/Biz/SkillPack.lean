import AisphereHub.Biz.Error
import AisphereHub.Foundation.GoStrconv

/-! Signed download URLs of skill packages: `BuildDownloadURL`, `VerifyDownloadURL`
and the checks of the download handler before it builds the package. A URL is
given by the parameters that its path and query carry. Instants are
nanoseconds. -/
namespace AisphereHub

/-- `skillPackageService`; `mac` is the hexadecimal HMAC of a payload under a key. -/
structure PackageSigner where
  mac : String → String → String
  secret : String
  ttl : Int

structure PackageParameters where
  name : String
  ref : String
  rt : String
  exp : String
  sig : String
deriving DecidableEq

structure PackageURL where
  name : String
  ref : String
  rt : String
  exp : Int
  sig : String
deriving DecidableEq

def newSkillPackageService (mac : String → String → String) (secret : String) (ttl : Int) :
    PackageSigner :=
  ⟨mac, secret, if ttl ≤ 0 then 10 * 60 * 10 ^ 9 else ttl⟩

/-- `time.Time.Unix`. -/
def unix (instant : Int) : Int := instant / 10 ^ 9

/-- The format `%s|%s|%s|%d`. -/
def packagePayload (name ref rt : String) (exp : Int) : String :=
  GoStrings.join [name, ref, rt, toString exp] '|'

namespace PackageSigner

def sign (s : PackageSigner) (payload : String) : String := s.mac s.secret payload

def buildDownloadURL (s : PackageSigner) (now : Int) (name version runtimeID : String) :
    PackageURL :=
  let exp := unix (now + s.ttl)
  ⟨name, version, runtimeID, exp, s.sign (packagePayload name version runtimeID exp)⟩

def verifyDownloadURL (s : PackageSigner) (now : Int) (p : PackageParameters) :
    Except HubError Unit :=
  if s.secret = "" then .error ⟨.SKILL_DEPENDENCY_FAILED, ""⟩
  else
    match GoStrconv.atoi p.exp with
    | none => .error ⟨.SKILL_PACK_EXPIRED, "skill package download URL expired"⟩
    | some exp =>
      if exp < unix now then .error ⟨.SKILL_PACK_EXPIRED, "skill package download URL expired"⟩
      else if s.sign (packagePayload p.name p.ref p.rt exp) ≠ p.sig then
        .error ⟨.SKILL_PACK_FORBIDDEN, "invalid skill package download signature"⟩
      else .ok ()

/-- `download` up to the point where it builds the package. -/
def download (s : PackageSigner) (now : Int) (p : PackageParameters) :
    Except HubError Unit :=
  if p.name = "" ∨ p.ref = "" ∨ p.rt = "" ∨ p.exp = "" ∨ p.sig = "" then
    .error ⟨.SKILL_PACK_INVALID_REQUEST, "missing skill package download parameters"⟩
  else s.verifyDownloadURL now p

end PackageSigner

end AisphereHub
