import AisphereHub.Foundation.GoJson
import AisphereHub.Foundation.GoStrings

/-! The two requests by which `model_management_probe.go` probes an endpoint: the list of the
provider's models, and an inference. Of the endpoint, what the builders read is kept. -/
namespace AisphereHub

open GoStrings
open GoJson (Json Decimal)

inductive ModelAPIFormat where
  | chat_completions | responses | claude_code | gemini | custom
deriving DecidableEq

def normalizeModelAPIFormat (value : String) : Except String ModelAPIFormat :=
  match toLower (trimSpace value) with
  | "" | "chat_completions" | "openai_chat_completions" | "chat-completion" | "chat completion" =>
    .ok .chat_completions
  | "responses" | "openai_responses" | "openai-responses" => .ok .responses
  | "claude_code" | "claude-code" | "claudecode" | "anthropic_messages" | "anthropic-messages" =>
    .ok .claude_code
  | "gemini" => .ok .gemini
  | "custom" => .ok .custom
  | _ => .error ("unsupported api format " ++ value.quote ++
      "; expected chat_completions, responses, claude_code, gemini or custom")

def defaultModelAPIPath : ModelAPIFormat → String
  | .chat_completions => "/v1/chat/completions"
  | .responses => "/v1/responses"
  | .claude_code => "/v1/messages"
  | .gemini => "/v1beta/models"
  | .custom => ""

structure ProbedEndpoint where
  baseURL : String
  apiPath : String := ""
  apiFormat : ModelAPIFormat
  providerModelID : String
deriving DecidableEq

structure ParsedURL where
  scheme : String
  host : String
  path : String := ""
  userinfo : Bool := false
  fragment : String := ""
deriving DecidableEq

def ParsedURL.absolute (u : ParsedURL) : Bool :=
  (u.scheme = "http" || u.scheme = "https") && u.host ≠ ""

/-- `url.Parse` and `url.PathEscape`. -/
structure URLPackage where
  parse : String → Option ParsedURL
  pathEscape : String → String

def ProbedEndpoint.base (endpoint : ProbedEndpoint) : String :=
  trimRight (trimSpace endpoint.baseURL) '/'

variable (U : URLPackage)

def buildModelListProbeURL (endpoint : ProbedEndpoint) : Except String String :=
  match (U.parse endpoint.base).filter ParsedURL.absolute with
  | none => .error "invalid base URL"
  | some parsed =>
    if hasSuffix parsed.path "/v1" then .ok (endpoint.base ++ "/models")
    else .ok (endpoint.base ++ "/v1/models")

/-- The reason and the message of `errorx.BadRequest`. -/
structure BadRequest where
  reason : String
  message : String
deriving DecidableEq

def probeText : Json Decimal := .str "Reply with OK."

def probePayload (modelID : String) : ModelAPIFormat → Json Decimal
  | .responses => .obj [("model", .str modelID), ("input", probeText),
      ("max_output_tokens", .num ⟨8, 0⟩), ("stream", .bool false)]
  | .claude_code => .obj [("model", .str modelID), ("messages", messages),
      ("max_tokens", .num ⟨8, 0⟩), ("stream", .bool false)]
  | .gemini => .obj [("contents", .arr [.obj [("parts", .arr [.obj [("text", probeText)]])]]),
      ("generationConfig", .obj [("maxOutputTokens", .num ⟨8, 0⟩)])]
  | .chat_completions | .custom => .obj [("model", .str modelID), ("messages", messages),
      ("temperature", .num ⟨0, 0⟩), ("max_tokens", .num ⟨8, 0⟩), ("stream", .bool false)]
where
  messages := .arr [.obj [("role", .str "user"), ("content", probeText)]]

def buildModelProbeRequest (endpoint : ProbedEndpoint) : Except BadRequest (String × Json Decimal) :=
  let baseURL := trimSpace endpoint.baseURL
  if baseURL = "" then
    .error ⟨"MODEL_ENDPOINT_BASE_URL_EMPTY", "model endpoint base URL is empty"⟩
  else if ((U.parse baseURL).filter fun u => u.absolute && !u.userinfo && u.fragment = "").isNone then
    .error ⟨"MODEL_ENDPOINT_BASE_URL_INVALID",
      "model endpoint base URL must be an absolute HTTP(S) URL without userinfo or fragment"⟩
  else
    let apiPath := trimSpace endpoint.apiPath
    let apiPath := if apiPath = "" then defaultModelAPIPath endpoint.apiFormat else apiPath
    let requestURL := endpoint.base ++ "/" ++ trimLeft apiPath '/'
    let modelID := trimSpace endpoint.providerModelID
    if modelID = "" then
      .error ⟨"MODEL_ENDPOINT_PROVIDER_MODEL_ID_EMPTY", "provider model ID is empty"⟩
    else
      let requestURL :=
        if endpoint.apiFormat = .gemini ∧ hasSuffix (trimRight requestURL '/') "/models" then
          trimRight requestURL '/' ++ "/" ++ U.pathEscape modelID ++ ":generateContent"
        else requestURL
      .ok (requestURL, probePayload modelID endpoint.apiFormat)

/-- One root below which both requests go, none of its text being a query or a fragment. -/
def ShareRoot (listURL requestURL apiPath : String) : Prop :=
  ∃ root, listURL = root ++ "/v1/models" ∧ requestURL = root ++ apiPath ∧
    '?' ∉ root.toList ∧ '#' ∉ root.toList

theorem shareRoot_iff :
    ShareRoot (base ++ tail) (base ++ apiPath) apiPath ↔
      tail = "/v1/models" ∧ '?' ∉ base.toList ∧ '#' ∉ base.toList := by
  constructor
  · rintro ⟨root, listed, sent, plain⟩
    obtain rfl : base = root := by
      rw [← String.toList_inj, String.toList_append, String.toList_append] at sent
      exact String.toList_inj.mp (List.append_cancel_right sent)
    rw [← String.toList_inj, String.toList_append, String.toList_append] at listed
    exact ⟨String.toList_inj.mp (List.append_cancel_left listed), plain⟩
  · rintro ⟨rfl, plain⟩
    exact ⟨base, rfl, rfl, plain⟩

variable {U} {endpoint : ProbedEndpoint}

theorem requestURL_default
    (style : endpoint.apiFormat ∈ [.chat_completions, .responses, .claude_code])
    (default : trimSpace endpoint.apiPath ∈ ["", defaultModelAPIPath endpoint.apiFormat])
    (built : buildModelProbeRequest U endpoint = .ok (requestURL, payload)) :
    requestURL = endpoint.base ++ defaultModelAPIPath endpoint.apiFormat := by
  have path : (if trimSpace endpoint.apiPath = "" then defaultModelAPIPath endpoint.apiFormat
      else trimSpace endpoint.apiPath) = defaultModelAPIPath endpoint.apiFormat := by
    split_ifs with unset
    · rfl
    · simpa [unset] using default
  obtain ⟨plain, slash⟩ : endpoint.apiFormat ≠ .gemini ∧
      "/" ++ trimLeft (defaultModelAPIPath endpoint.apiFormat) '/' =
        defaultModelAPIPath endpoint.apiFormat := by
    simp only [List.mem_cons, List.not_mem_nil, or_false] at style
    rcases style with same | same | same <;> rw [same] <;> decide
  unfold buildModelProbeRequest at built
  simp only [path, plain, false_and, if_false, String.append_assoc, slash] at built
  split_ifs at built
  exact (congrArg Prod.fst (Except.ok.inj built)).symm

theorem buildModelListProbeURL_eq_ok (listed : buildModelListProbeURL U endpoint = .ok listURL) :
    ∃ u, U.parse endpoint.base = some u ∧
      listURL = endpoint.base ++ if hasSuffix u.path "/v1" then "/models" else "/v1/models" := by
  unfold buildModelListProbeURL at listed
  split at listed
  · cases listed
  · rename_i u absolute
    refine ⟨u, (Option.filter_eq_some_iff.mp absolute).1, ?_⟩
    split_ifs at listed ⊢ <;> exact (Except.ok.inj listed).symm

/-- Both requests go below one root exactly when the base URL has neither a query nor a fragment
and its path does not end in `/v1`. -/
theorem probes_share_root_iff (U : URLPackage) (endpoint : ProbedEndpoint)
    (style : endpoint.apiFormat ∈ [.chat_completions, .responses, .claude_code])
    (default : trimSpace endpoint.apiPath ∈ ["", defaultModelAPIPath endpoint.apiFormat])
    (listURL requestURL : String) (payload : Json Decimal)
    (listed : buildModelListProbeURL U endpoint = .ok listURL)
    (built : buildModelProbeRequest U endpoint = .ok (requestURL, payload)) :
    ShareRoot listURL requestURL (defaultModelAPIPath endpoint.apiFormat) ↔
      (∀ u, U.parse endpoint.base = some u → hasSuffix u.path "/v1" = false) ∧
        '?' ∉ endpoint.base.toList ∧ '#' ∉ endpoint.base.toList := by
  obtain ⟨u, read, rfl⟩ := buildModelListProbeURL_eq_ok listed
  rw [requestURL_default style default built, shareRoot_iff, read]
  by_cases versioned : hasSuffix u.path "/v1" = true
  · simp [versioned]
  · simp [versioned]

/-- A reader of `https://h` followed by a path and a query. -/
def hostOnly : URLPackage where
  parse url := if hasPrefix url "https://h" then
    some { scheme := "https", host := "h", path := .ofList ((url.toList.drop 9).takeWhile (· ≠ '?')) }
    else none
  pathEscape := id

def chatEndpoint (baseURL : String) : ProbedEndpoint where
  baseURL := baseURL
  apiFormat := .chat_completions
  providerModelID := "m"

theorem plain_base_shares_root :
    ShareRoot "https://h/api/v1/models" "https://h/api/v1/chat/completions" "/v1/chat/completions" :=
  (probes_share_root_iff hostOnly (chatEndpoint "https://h/api/") (by decide) (by decide +kernel) _ _
    (probePayload "m" .chat_completions) (by decide +kernel) rfl).mpr
    ⟨fun _ read => Option.some.inj read ▸ by decide +kernel, by decide +kernel, by decide +kernel⟩

/-- A base URL that ends in `/v1`. -/
theorem versioned_base_splits_root :
    buildModelListProbeURL hostOnly (chatEndpoint "https://h/v1") = .ok "https://h/v1/models" ∧
    (buildModelProbeRequest hostOnly (chatEndpoint "https://h/v1")).map Prod.fst =
      .ok "https://h/v1/v1/chat/completions" ∧
    ¬ShareRoot "https://h/v1/models" "https://h/v1/v1/chat/completions" "/v1/chat/completions" := by
  refine ⟨by decide +kernel, by decide +kernel, fun shared => ?_⟩
  rw [show "https://h/v1/models" = "https://h/v1" ++ "/models" by decide,
    show "https://h/v1/v1/chat/completions" = "https://h/v1" ++ "/v1/chat/completions" by decide,
    shareRoot_iff] at shared
  exact absurd shared.1 (by decide)

end AisphereHub
