import AisphereHub.Data.ClientPool

/-! The SSRF guard of the client pool: `NewEndpointPolicy`, `Validate` and the pinned dialer. An
address is its bytes, which the dialer reads back from their text. -/
namespace AisphereHub

open GoStrings

abbrev IP := List UInt8

namespace IP

def to4 (ip : IP) : Option IP :=
  if ip.length = 4 then some ip
  else if ip.length = 16 ∧ ip.take 12 = List.replicate 10 0 ++ [255, 255] then some (ip.drop 12)
  else none

/-- The IPv4 test on the four bytes of an address that has them, the IPv6 test on any other. -/
def either (v4 v6 : IP → Bool) (ip : IP) : Bool :=
  match ip.to4 with
  | some x => v4 x
  | none => ip.length = 16 && v6 ip

def isUnspecified : IP → Bool := either (· = [0, 0, 0, 0]) (· = List.replicate 16 0)

def isLoopback : IP → Bool := either (·.head? = some 127) (· = List.replicate 15 0 ++ [1])

def isLinkLocalUnicast : IP → Bool :=
  either (·.take 2 = [169, 254]) fun ip => ip[0]! = 0xfe && ip[1]! &&& 0xc0 = 0x80

def isLinkLocalMulticast : IP → Bool :=
  either (·.take 3 = [224, 0, 0]) fun ip => ip[0]! = 0xff && ip[1]! &&& 0x0f = 0x02

def isUniqueLocal : IP → Bool := either (fun _ => false) (·[0]! &&& 0xfe = 0xfc)

def isPrivate : IP → Bool :=
  either (fun x => x[0]! = 10 || (x[0]! = 172 && x[1]! &&& 0xf0 = 16) || x.take 2 = [192, 168])
    isUniqueLocal

end IP

structure IPNet where
  ip : IP
  mask : List UInt8

def IPNet.contains (n : IPNet) (ip : IP) : Bool :=
  let nn := n.ip.to4.getD n.ip
  let m := if n.mask.length = 16 ∧ nn.length = 4 then n.mask.drop 12 else n.mask
  let x := ip.to4.getD ip
  m.length = nn.length && x.length = nn.length && nn.zipWith (· &&& ·) m = x.zipWith (· &&& ·) m

structure EndpointPolicyConfig where
  allowPrivateClusterCIDRs : Bool := false
  forbiddenCIDRs : List String := []
  allowedClusterEgress : List String := []

structure EndpointURL where
  scheme : String
  hostname : String

/-- What Go's `net` and `net/url` read, and the answers of the resolver. -/
structure NetReader where
  parseCIDR : String → Except String IPNet
  parseURL : String → Except String EndpointURL
  parseIP : String → Option IP
  lookupIPAddr : String → Except String (List IP)

structure EndpointPolicy where
  allowedEgress : List IPNet
  forbidden : List IPNet
  allowPrivate : Bool

structure ResolvedEndpoint where
  originalHost : String
  resolvedIPs : List IP

def looksLikeDomain (s : String) : Bool := !contains s "/" && contains s "."

/-- The domain entries of the list are not stored, so every host name passes. -/
def EndpointPolicy.hostnameAllowed (_ : EndpointPolicy) (_ : String) : Bool := true

def EndpointPolicy.ipAllowed (p : EndpointPolicy) (ip : IP) : Bool :=
  !ip.isLoopback && !(ip.isLinkLocalUnicast || ip.isLinkLocalMulticast) &&
    (p.allowPrivate || !(ip.isPrivate || ip.isUniqueLocal)) && !p.forbidden.any (·.contains ip) &&
      (p.allowedEgress.isEmpty || p.allowedEgress.any (·.contains ip))

section
variable (L : NetReader)

def NetReader.nets (cidrs : List String) : List IPNet :=
  cidrs.filterMap fun cidr => (L.parseCIDR cidr).toOption

def newEndpointPolicy (cfg : EndpointPolicyConfig) : Except HubError EndpointPolicy := do
  cfg.forbiddenCIDRs.forM fun cidr =>
    discard (wrapped ("endpoint policy: invalid forbidden_cidr " ++ cidr.quote ++ ": ")
      (L.parseCIDR cidr))
  cfg.allowedClusterEgress.forM fun cidr =>
    if looksLikeDomain cidr then pure ()
    else discard (wrapped ("endpoint policy: invalid allowed_cluster_egress " ++ cidr.quote ++ ": ")
      (L.parseCIDR cidr))
  return ⟨L.nets cfg.allowedClusterEgress, L.nets cfg.forbiddenCIDRs, cfg.allowPrivateClusterCIDRs⟩

def NetReader.resolve (host : String) : Except String (List IP) :=
  match L.parseIP host with
  | some ip => .ok [ip]
  | none =>
    match L.lookupIPAddr host with
    | .ok [] => .error "no addresses"
    | answer => answer

def EndpointPolicy.validate (p : EndpointPolicy) (serverURL : String) :
    Except HubError ResolvedEndpoint :=
  match L.parseURL serverURL with
  | .error cause => .error ⟨.INVALID_ARGUMENT, "parse server_url: " ++ cause⟩
  | .ok u =>
    if u.scheme ≠ "https" then
      .error ⟨.INVALID_ARGUMENT, "server_url must be https, got " ++ u.scheme.quote⟩
    else if u.hostname = "" then .error ⟨.INVALID_ARGUMENT, "server_url has empty host"⟩
    else if !p.hostnameAllowed u.hostname then
      .error ⟨.INVALID_ARGUMENT,
        "server_url host " ++ u.hostname.quote ++ " not in allowed_cluster_egress"⟩
    else
      match L.resolve u.hostname with
      | .error cause =>
        .error ⟨.INVALID_ARGUMENT, "resolve host " ++ u.hostname.quote ++ ": " ++ cause⟩
      | .ok ips =>
        if ips.filter p.ipAllowed = [] then
          .error ⟨.INVALID_ARGUMENT,
            "server_url " ++ serverURL.quote ++ " resolves only to forbidden addresses"⟩
        else .ok ⟨u.hostname, ips.filter p.ipAllowed⟩

variable (K : Kubernetesx)

/-- The URL that `defaultClientFactory` has validated and pinned. -/
def pinnedURL (cred : Credential) : Option String :=
  match cred.kind with
  | .KUBECONFIG => (restConfigFromKubeconfig K cred).toOption.map RestConfig.host
  | .SERVICE_ACCOUNT => some cred.host
  | .IN_CLUSTER => none

/-- The address that every connection of the client built for the credential dials. -/
def EndpointPolicy.dials (p : EndpointPolicy) (clusterID : String) (cred : Credential) :
    Option IP := do
  let resolved ← (p.validate L (← pinnedURL K cred)).toOption
  let _ ← (defaultClientFactory K clusterID cred none).toOption
  resolved.resolvedIPs.head?

end

variable {L : NetReader} {cfg : EndpointPolicyConfig} {p : EndpointPolicy}

theorem newEndpointPolicy_eq_ok (accepted : newEndpointPolicy L cfg = .ok p) :
    p = ⟨L.nets cfg.allowedClusterEgress, L.nets cfg.forbiddenCIDRs,
      cfg.allowPrivateClusterCIDRs⟩ := by
  obtain ⟨_, _, accepted⟩ := bind_eq_ok.mp accepted
  obtain ⟨_, _, accepted⟩ := bind_eq_ok.mp accepted
  cases accepted
  rfl

theorem validate_eq_ok : p.validate L serverURL = .ok resolved ↔
    ∃ u ips, L.parseURL serverURL = .ok u ∧ u.scheme = "https" ∧ u.hostname ≠ "" ∧
      L.resolve u.hostname = .ok ips ∧ ips.filter p.ipAllowed ≠ [] ∧
      resolved = ⟨u.hostname, ips.filter p.ipAllowed⟩ := by
  unfold EndpointPolicy.validate
  constructor
  · intro valid
    split at valid
    · cases valid
    · rename_i u parsed
      split_ifs at valid with scheme host named
      split at valid
      · cases valid
      · rename_i ips found
        split_ifs at valid with none
        cases valid
        exact ⟨u, ips, parsed, not_not.mp scheme, host, found, none, rfl⟩
  · rintro ⟨u, ips, parsed, scheme, host, found, some, rfl⟩
    simp [parsed, scheme, host, found, some, EndpointPolicy.hostnameAllowed]

theorem mem_nets : n ∈ L.nets cidrs ↔ ∃ cidr ∈ cidrs, L.parseCIDR cidr = .ok n := by
  simp only [NetReader.nets, List.mem_filterMap]
  refine exists_congr fun cidr => and_congr_right fun _ => ?_
  cases L.parseCIDR cidr <;> simp [Except.toOption]

/-- The host name ends with a domain entry, or every address lies in a CIDR entry. -/
def ResolvedEndpoint.Restricted (resolved : ResolvedEndpoint) (L : NetReader)
    (egress : List String) : Prop :=
  (∃ domain ∈ egress, (∀ n, L.parseCIDR domain ≠ .ok n) ∧
      hasSuffix resolved.originalHost domain) ∨
    ∀ ip ∈ resolved.resolvedIPs, ∃ cidr ∈ egress, ∃ n, L.parseCIDR cidr = .ok n ∧ n.contains ip

/-- A list restricts what `Validate` returns exactly if it has a CIDR entry, or the host name
ends with one of its entries. -/
theorem egress_list_restricts_iff (L : NetReader) (cfg : EndpointPolicyConfig) (p : EndpointPolicy)
    (accepted : newEndpointPolicy L cfg = .ok p) (serverURL : String)
    (resolved : ResolvedEndpoint) (valid : p.validate L serverURL = .ok resolved) :
    resolved.Restricted L cfg.allowedClusterEgress ↔
      (∃ cidr ∈ cfg.allowedClusterEgress, ∃ n, L.parseCIDR cidr = .ok n) ∨
      ∃ u, L.parseURL serverURL = .ok u ∧
        ∃ domain ∈ cfg.allowedClusterEgress, hasSuffix u.hostname domain := by
  obtain ⟨u, ips, parsed, _, _, _, some, rfl⟩ := validate_eq_ok.mp valid
  constructor
  · rintro (⟨domain, listed, _, ends⟩ | inside)
    · exact .inr ⟨u, parsed, domain, listed, ends⟩
    · obtain ⟨ip, member⟩ := List.exists_mem_of_ne_nil _ some
      obtain ⟨cidr, listed, n, read, _⟩ := inside ip member
      exact .inl ⟨cidr, listed, n, read⟩
  · by_cases ranged : ∃ cidr ∈ cfg.allowedClusterEgress, ∃ n, L.parseCIDR cidr = .ok n
    · refine fun _ => .inr fun ip member => ?_
      have allowed := (List.mem_filter.mp member).2
      obtain ⟨entry, listed, net, read⟩ := ranged
      have kept : net ∈ L.nets cfg.allowedClusterEgress := mem_nets.mpr ⟨entry, listed, read⟩
      simp only [newEndpointPolicy_eq_ok accepted, EndpointPolicy.ipAllowed, Bool.and_eq_true,
        Bool.or_eq_true, List.isEmpty_iff, List.ne_nil_of_mem kept, false_or, List.any_eq_true]
        at allowed
      obtain ⟨n, held, inside⟩ := allowed.2
      obtain ⟨cidr, from_list, read⟩ := mem_nets.mp held
      exact ⟨cidr, from_list, n, read, inside⟩
    · rintro (some | ⟨u', again, domain, listed, ends⟩)
      · exact absurd some ranged
      · cases parsed.symm.trans again
        exact .inl ⟨domain, listed, fun n read => ranged ⟨domain, listed, n, read⟩, ends⟩

def smallNet (ip : IP) : NetReader where
  parseCIDR cidr := if cidr = "203.0.113.0/24" then .ok ⟨[203, 0, 113, 0], [255, 255, 255, 0]⟩
    else .error "invalid CIDR address"
  parseURL raw := .ok ⟨"https", trimPrefix raw "https://"⟩
  parseIP _ := none
  lookupIPAddr _ := .ok [ip]

theorem egress_list_restricts_domain :
    ∃ p, newEndpointPolicy (smallNet [203, 0, 113, 9]) { allowedClusterEgress := ["example.com"] } =
        .ok p ∧
      ∃ resolved, p.validate (smallNet [203, 0, 113, 9]) "https://k8s.example.com" = .ok resolved ∧
        resolved.Restricted (smallNet [203, 0, 113, 9]) ["example.com"] :=
  ⟨_, rfl, _, rfl, (egress_list_restricts_iff _ { allowedClusterEgress := ["example.com"] } _ rfl
    "https://k8s.example.com" _ rfl).mpr (.inr ⟨_, rfl, "example.com", by simp, by decide +kernel⟩)⟩

/-- With only a domain in the list, `Validate` accepts every other host. -/
theorem domain_list_unrestricted :
    ∃ p, newEndpointPolicy (smallNet [198, 51, 100, 7]) { allowedClusterEgress := ["example.com"] } =
        .ok p ∧
      ∃ resolved, p.validate (smallNet [198, 51, 100, 7]) "https://k8s" = .ok resolved ∧
        ¬resolved.Restricted (smallNet [198, 51, 100, 7]) ["example.com"] := by
  refine ⟨_, rfl, _, rfl, ?_⟩
  simp [ResolvedEndpoint.Restricted, smallNet]
  decide

/-- Not loopback, link-local or in a forbidden CIDR, private only where that is allowed, and not
the unspecified address, which reaches the local host. -/
def IP.Outside (ip : IP) (L : NetReader) (cfg : EndpointPolicyConfig) : Prop :=
  ¬ip.isLoopback ∧ ¬(ip.isLinkLocalUnicast ∨ ip.isLinkLocalMulticast) ∧
    (∀ cidr ∈ cfg.forbiddenCIDRs, ∀ n, L.parseCIDR cidr = .ok n → ¬n.contains ip) ∧
    (ip.isPrivate → cfg.allowPrivateClusterCIDRs) ∧ ¬ip.isUnspecified

/-- A forbidden CIDR holds the address, or the egress list has CIDR entries and none holds it. -/
def EndpointPolicyConfig.Closes (cfg : EndpointPolicyConfig) (L : NetReader) (ip : IP) : Prop :=
  (∃ n ∈ L.nets cfg.forbiddenCIDRs, n.contains ip) ∨
    L.nets cfg.allowedClusterEgress ≠ [] ∧
      ∀ n ∈ L.nets cfg.allowedClusterEgress, ¬n.contains ip

instance (cfg : EndpointPolicyConfig) (L : NetReader) (ip : IP) : Decidable (cfg.Closes L ip) :=
  inferInstanceAs (Decidable (_ ∨ _))

/-- The unspecified addresses, the IPv4 one also in its mapped form. -/
def IP.zeros : List IP :=
  [[0, 0, 0, 0], List.replicate 16 0, List.replicate 10 0 ++ [255, 255, 0, 0, 0, 0]]

theorem mem_zeros (unspecified : ip.isUnspecified = true) : ip ∈ IP.zeros := by
  unfold IP.isUnspecified IP.either IP.to4 at unspecified
  split_ifs at unspecified with short mapped
  · have same : ip = [0, 0, 0, 0] := by simpa using unspecified
    simp [IP.zeros, same]
  · have low : ip.drop 12 = [0, 0, 0, 0] := by simpa using unspecified
    have whole : ip = List.replicate 10 0 ++ [255, 255] ++ [0, 0, 0, 0] := by
      rw [← mapped.2, ← low, List.take_append_drop]
    simp [IP.zeros, whole]
  · have same : ip = List.replicate 16 0 := by
      simp only [Bool.and_eq_true, decide_eq_true_eq] at unspecified
      exact unspecified.2
    simp [IP.zeros, same]

theorem dials_eq_some : p.dials L K clusterID cred = some ip ↔
    ∃ url resolved client, pinnedURL K cred = some url ∧ p.validate L url = .ok resolved ∧
      defaultClientFactory K clusterID cred none = .ok client ∧
      resolved.resolvedIPs.head? = some ip := by
  have read {ε α : Type} {x : Except ε α} {y} : x.toOption = some y ↔ x = .ok y := by
    cases x <;> simp [Except.toOption]
  simp only [EndpointPolicy.dials, Option.bind_eq_bind, Option.bind_eq_some_iff, read]
  grind

theorem ipAllowed_zero (accepted : newEndpointPolicy L cfg = .ok p) (listed : zero ∈ IP.zeros)
    (opened : ¬cfg.Closes L zero) : p.ipAllowed zero = true := by
  have classes : ∀ zero ∈ IP.zeros, (!zero.isLoopback &&
      !(zero.isLinkLocalUnicast || zero.isLinkLocalMulticast) &&
      !(zero.isPrivate || zero.isUniqueLocal)) = true := by
    decide
  obtain rfl := newEndpointPolicy_eq_ok accepted
  rw [EndpointPolicyConfig.Closes, not_or] at opened
  grind [EndpointPolicy.ipAllowed]

theorem outside_of_ipAllowed (accepted : newEndpointPolicy L cfg = .ok p)
    (allowed : p.ipAllowed ip = true) (closed : ∀ zero ∈ IP.zeros, cfg.Closes L zero) :
    ip.Outside L cfg := by
  obtain rfl := newEndpointPolicy_eq_ok accepted
  simp only [EndpointPolicy.ipAllowed, Bool.and_eq_true, Bool.not_eq_true',
    Bool.or_eq_false_iff, Bool.or_eq_true, List.any_eq_false, List.any_eq_true,
    List.isEmpty_iff] at allowed
  obtain ⟨⟨⟨⟨loopback, link⟩, privates⟩, outside⟩, egress⟩ := allowed
  refine ⟨by simp [loopback], by simp [link], ?_, ?_, ?_⟩
  · exact fun cidr listed n parsed => outside n (mem_nets.mpr ⟨cidr, listed, parsed⟩)
  · exact fun isPrivate => privates.resolve_right (by simp [isPrivate])
  · intro unspecified
    rcases closed ip (mem_zeros unspecified) with ⟨n, listed, inside⟩ | ⟨some, none⟩
    · exact outside n listed inside
    · obtain ⟨n, listed, inside⟩ := egress.resolve_left some
      exact none n listed inside

/-- Every address that pooled clients dial is outside, whatever the resolver answers, exactly if
the configuration closes the unspecified addresses. Some credential names a host that is looked
up. -/
theorem pool_dials_outside_iff (K : Kubernetesx) (L : NetReader) (cfg : EndpointPolicyConfig)
    (p : EndpointPolicy) (accepted : newEndpointPolicy L cfg = .ok p)
    (looked : ∃ clusterID cred client url u, defaultClientFactory K clusterID cred none = .ok client ∧
      pinnedURL K cred = some url ∧ L.parseURL url = .ok u ∧ u.scheme = "https" ∧
      u.hostname ≠ "" ∧ L.parseIP u.hostname = none) :
    (∀ answers clusterID cred ip,
      p.dials { L with lookupIPAddr := answers } K clusterID cred = some ip → ip.Outside L cfg) ↔
    ∀ zero ∈ IP.zeros, cfg.Closes L zero := by
  constructor
  · intro law zero listed
    by_contra opened
    obtain ⟨clusterID, cred, client, url, u, built, pinned, parsed, scheme, host, name⟩ := looked
    have allowed := ipAllowed_zero accepted listed opened
    have outside := law (fun _ => .ok [zero]) clusterID cred zero (dials_eq_some.mpr ⟨url, _, client,
      pinned, validate_eq_ok.mpr ⟨u, [zero], parsed, scheme, host, ?_, ?_, rfl⟩, built, ?_⟩)
    · have unspecified : ∀ zero ∈ IP.zeros, zero.isUnspecified = true := by decide
      exact outside.2.2.2.2 (unspecified zero listed)
    · simp [NetReader.resolve, name]
    · simp [allowed]
    · simp [allowed]
  · intro closed answers clusterID cred ip dialled
    obtain ⟨url, resolved, _, _, valid, _, first⟩ := dials_eq_some.mp dialled
    obtain ⟨_, _, _, _, _, _, _, rfl⟩ := validate_eq_ok.mp valid
    exact outside_of_ipAllowed accepted (List.mem_filter.mp (List.mem_of_head? first)).2 closed

def clusterAccount : Credential := { kind := .SERVICE_ACCOUNT, host := "https://k8s" }

theorem pool_dials_outside_range :
    ∃ p, newEndpointPolicy (smallNet [203, 0, 113, 9])
        { allowedClusterEgress := ["203.0.113.0/24"] } = .ok p ∧
      p.dials (smallNet [203, 0, 113, 9]) trustingKubernetesx "c" clusterAccount =
        some [203, 0, 113, 9] ∧ IP.Outside [203, 0, 113, 9] (smallNet [203, 0, 113, 9])
          { allowedClusterEgress := ["203.0.113.0/24"] } :=
  ⟨_, rfl, rfl, (pool_dials_outside_iff trustingKubernetesx (smallNet [203, 0, 113, 9]) _ _ rfl
    ⟨"c", clusterAccount, _, _, _, rfl, rfl, rfl, rfl, by decide +kernel, rfl⟩).mpr
    (by decide +kernel) (fun _ => .ok [[203, 0, 113, 9]]) "c" clusterAccount _ rfl⟩

/-- A name that resolves to `0.0.0.0` passes every check. -/
theorem pool_dials_unspecified :
    ∃ p, newEndpointPolicy (smallNet [0, 0, 0, 0]) {} = .ok p ∧
      p.dials (smallNet [0, 0, 0, 0]) trustingKubernetesx "c" clusterAccount = some [0, 0, 0, 0] ∧
      ¬IP.Outside [0, 0, 0, 0] (smallNet [0, 0, 0, 0]) {} :=
  ⟨_, rfl, rfl, fun outside => outside.2.2.2.2 (by decide)⟩

end AisphereHub
