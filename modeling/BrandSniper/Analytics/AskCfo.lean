import BrandSniper.Analytics.CfoCalibration
import BrandSniper.Analytics.VerdictRuns
import BrandSniper.Kit.Chat

/-!
# Asking the CFO

`ask_cfo` of `apps/analytics/cfo_calibration.py`, with `_create` and
`parse_verdict`: the tool loop on one trade and the question for the answer.
The provider is any function of the requests (`Provider`); what pydantic makes
of an answer is `validate`.

The methods run in a state monad whose exceptions keep the state, because a
verdict that failed still counts its calls.
-/

namespace BrandSniper.Cfo

open Kit Labels

/-- `MAX_TOOL_ROUNDS` -/
def maxToolRounds : Nat := 4

/-- `MAX_RATE_LIMIT_RETRIES` -/
def maxRateLimitRetries : Nat := 20

def VARIANT_ADVERSARIAL : String := "adversarial"

def ADVERSARIAL_SYSTEM : String := "
You are the Adversarial CFO of an algorithmic trading firm.
Your automated trading bot just executed a paper trade.
The bot claims this is a highly profitable \"snipe\" based on its historical baselines.
Your job is to PROVE THE BOT WRONG.
Use the available tools to fetch the market floor and recent sales as of the trade, and to look up the
baselines of related items.
If the market floor is lower than the bot's baseline, or if there is a falling knife
trend, the bot made a bad trade.
"

def NEUTRAL_SYSTEM : String := "
You are a trading analyst reviewing a paper trade made by a rules based bot on the Skinport CS2 skin market.
Estimate, as a calibrated probability, whether the trade makes money. Be neither optimistic nor pessimistic:
across many trades, the trades you give a probability of 0.3 should turn out profitable about 30% of the time.
Use the available tools to check the market floor and recent sales as of the trade and the baselines of related
items. All data you can see ends at the moment of the trade.
"

def FINAL_INSTRUCTION : String :=
  "Answer with JSON only, no other text: \x7b\"probability_of_profit\": <number from 0 to 1>, "
    ++ "\"reasoning\": \"<two or three sentences>\"\x7d"

/-! ## The provider -/

/-- An exception of the client library. -/
structure ProviderError where
  message : String
  statusCode : Option Int

/-- The answer to the request of this number. -/
abbrev Provider := Nat → ChatRequest → Except ProviderError ChatResponse

inductive AskError where
  | quotaExhausted (message : String)
  | raised (message : String)

/-- `str(error)` -/
def AskError.text : AskError → String
  | .quotaExhausted message => message
  | .raised message => message

def dailyQuotaMarkers : List String :=
  ["tokens per day", "requests per day", "(tpd)", "(rpd)"]

def isDailyQuota (lower : String → String) (error : ProviderError) : Bool :=
  dailyQuotaMarkers.any fun marker => MarketView.isIn marker.toList (lower error.message).toList

def isRetryable (error : ProviderError) : Bool :=
  match error.statusCode with
  | none => true
  | some statusCode => statusCode = 429 || 500 ≤ statusCode

/-- `"tool_use_failed" in text` -/
def toolUseFailed (text : String) : Bool := MarketView.isIn "tool_use_failed".toList text.toList

/-! ## The call -/

/-- The conversation, every request sent so far and the counts of the verdict. -/
structure Asking where
  messages : List ChatMessage
  requests : List ChatRequest
  llmCalls : Nat
  promptTokens : Int
  completionTokens : Int
  toolCalls : List String

abbrev AskM := EStateM AskError Asking

namespace Asking

def start (system prompt : String) : Asking := ⟨[.system system, .user prompt], [], 0, 0, 0, []⟩

def sent (s : Asking) (request : ChatRequest) : Asking :=
  { s with requests := s.requests ++ [request] }

/-- What `call` does with a response. -/
def answered (s : Asking) (response : ChatResponse) : Asking :=
  { s with
    messages := s.messages ++ [response.message]
    llmCalls := s.llmCalls + 1
    promptTokens := s.promptTokens + response.promptTokens
    completionTokens := s.completionTokens + response.completionTokens }

def say (s : Asking) (message : ChatMessage) : Asking := { s with messages := s.messages ++ [message] }

end Asking

section
variable (lower : String → String) (provider : Provider)

/-- `_create`, with this many attempts left after the next one. -/
def create (request : ChatRequest) : Nat → AskM ChatResponse
  | 0, s =>
      match provider s.requests.length request with
      | .ok response => .ok response (s.sent request)
      | .error error =>
          if isDailyQuota lower error then
            .error (.quotaExhausted error.message) (s.sent request)
          else .error (.raised error.message) (s.sent request)
  | left + 1, s =>
      match provider s.requests.length request with
      | .ok response => .ok response (s.sent request)
      | .error error =>
          if isDailyQuota lower error then
            .error (.quotaExhausted error.message) (s.sent request)
          else if isRetryable error then create request left (s.sent request)
          else .error (.raised error.message) (s.sent request)

/-- `call(tool_choice)` -/
def call (toolChoice : ToolChoice) : AskM ChatResponse := fun s =>
  match create lower provider ⟨s.messages, toolChoice⟩ (maxRateLimitRetries - 1) s with
  | .ok response s => .ok response (s.answered response)
  | .error error s => .error error s

/-- A call, or nothing when the provider rejected a tool call of the model. -/
def tryCall (toolChoice : ToolChoice) : AskM (Option ChatResponse) := fun s =>
  match call lower provider toolChoice s with
  | .ok response s => .ok (some response) s
  | .error error s => if toolUseFailed error.text then .ok none s else .error error s

/-- What a tool does with the value of its arguments: a text, or an exception. -/
abbrev Tool := String → Json ℚ → Except String String

/-- The value of a call's arguments. -/
def argumentsOf [PyFloat ℚ] (call : ToolCall) : Json ℚ :=
  (Json.loads (match call.arguments with
    | none => "\x7b\x7d"
    | some "" => "\x7b\x7d"
    | some text => text)).getD (.obj [])

/-- Runs the calls of a turn, in order. -/
def runToolCalls [PyFloat ℚ] (tool : Tool) : List ToolCall → AskM Unit
  | [], s => .ok () s
  | call :: calls, s =>
      match tool call.name (argumentsOf call) with
      | .error message => .error (.raised message) { s with toolCalls := s.toolCalls ++ [call.name] }
      | .ok text =>
          runToolCalls tool calls
            (Asking.say { s with toolCalls := s.toolCalls ++ [call.name] } (call.reply text))

/-- The turns of the tool loop that are left. The text is the answer, if there is one. -/
def toolRounds [PyFloat ℚ] (tool : Tool) : Nat → AskM String
  | 0 => return ""
  | left + 1 => do
      match ← tryCall lower provider .auto with
      | none => return ""
      | some response =>
          if response.finishReason ≠ "tool_calls" || response.toolCalls.isEmpty then
            return response.content.getD ""
          else
            runToolCalls tool response.toolCalls
            toolRounds tool left

/-- `text.find(c)` -/
def findChar (c : Char) (text : List Char) : Option Nat := text.findIdx? (· = c)

/-- `text.rfind(c)` -/
def rfindChar (c : Char) (text : List Char) : Option Nat :=
  (text.reverse.findIdx? (· = c)).map fun index => text.length - 1 - index

/-- `CalibratedVerdict(**document)`: a probability and a reasoning, or the message of the error. -/
abbrev Validate := List (String × Json ℚ) → Except String (ℚ × String)

/-- The blanks that `parse_verdict` strips lie outside the braces. -/
def parseVerdict [PyFloat ℚ] (validate : Validate) (raw : String) : Except String (ℚ × String) :=
  let text := raw.toList
  match findChar '{' text, rfindChar '}' text with
  | some start, some stop =>
      if stop ≤ start then .error "no JSON object in the answer"
      else match Json.loads (String.ofList ((text.take (stop + 1)).drop start)) with
        | some (.obj document) => validate document
        | _ => .error "the answer is not JSON"
  | _, _ => .error "no JSON object in the answer"

/-- The call for the answer: some models call a tool with no tool to call, so they are not told of
the tools then. -/
def askAgain : AskM ChatResponse := do
  match ← tryCall lower provider .none with
  | some response => return response
  | none => call lower provider .unsent

/-- The answer as a verdict; one that does not parse is asked for again, without tools. -/
def finalVerdict [PyFloat ℚ] (validate : Validate) (answer : String) : AskM (ℚ × String) :=
  match parseVerdict validate answer with
  | .ok verdict => return verdict
  | .error _ => do
      modify fun s => s.say (.user FINAL_INSTRUCTION)
      let response ← askAgain lower provider
      match parseVerdict validate (response.content.getD "") with
      | .ok verdict => return verdict
      | .error message => throw (.raised message)

/-- The result of a call with what it counted. -/
def Asking.reply (s : Asking) (outcome : Outcome ℚ) : Reply ℚ :=
  ⟨outcome, s.promptTokens, s.completionTokens, s.llmCalls, s.toolCalls⟩

/-- How the call ends: an exception other than the quota's is recorded with the verdict. -/
def endOf : EStateM.Result AskError Asking (ℚ × String) → Except String (Reply ℚ) × Asking
  | .ok (probability, reasoning) s => (.ok (s.reply (.ok probability reasoning)), s)
  | .error (.raised message) s => (.ok (s.reply (.failed message)), s)
  | .error (.quotaExhausted message) s => (.error message, s)

/-- `ask_cfo`: the quota error, or what was learned of the trade; and all that was sent. -/
def askCfo [PyFloat ℚ] (tool : Tool) (validate : Validate) (variant prompt : String) :
    Except String (Reply ℚ) × Asking :=
  let system := if variant = VARIANT_ADVERSARIAL then ADVERSARIAL_SYSTEM else NEUTRAL_SYSTEM
  endOf ((toolRounds lower provider tool maxToolRounds >>= finalVerdict lower provider validate)
    (.start system prompt))

end

/-- The tools on a view. Arguments that are no object cannot be passed to a known tool. -/
def viewTool [PyFloat ℚ] (F : FloatArith) (lower : String → String)
    (readFloat : Json ℚ → Except String ℚ) (exception : String → Json ℚ → String)
    (view : MarketView) : Tool := fun name arguments =>
  match arguments with
  | .obj fields =>
      match runTool F lower readFloat view name fields with
      | some text => .ok text
      | none => .error (exception name arguments)
  | _ =>
      if name ∈ ["fetch_market_floor", "search_item_baselines", "verify_float_value"] then
        .error (exception name arguments)
      else match runTool F lower readFloat view name [] with
        | some text => .ok text
        | none => .error (exception name arguments)

/-! ## One call -/

theorem askM_bind_ok {α β : Type} {x : AskM α} {f : α → AskM β} {s s' : Asking} {a : α}
    (h : x s = .ok a s') : (x >>= f) s = f a s' := by
  show EStateM.bind x f s = f a s'
  rw [EStateM.bind, h]

theorem askM_bind_error {α β : Type} {x : AskM α} {f : α → AskM β} {s s' : Asking} {e : AskError}
    (h : x s = .error e s') : (x >>= f) s = .error e s' := by
  show EStateM.bind x f s = .error e s'
  rw [EStateM.bind, h]

theorem askM_bind_modify {β : Type} (f : Asking → Asking) (body : Unit → AskM β) (s : Asking) :
    (modify f >>= body) s = body () (f s) := rfl

/-- The state after so many attempts with one request. -/
def Asking.sentTimes (s : Asking) (request : ChatRequest) (count : Nat) : Asking :=
  { s with requests := s.requests ++ List.replicate count request }

theorem Asking.sent_sentTimes (s : Asking) (request : ChatRequest) (count : Nat) :
    (s.sent request).sentTimes request count = s.sentTimes request (count + 1) := by
  rw [sentTimes, sentTimes, sent, List.append_assoc, List.replicate_succ]
  rfl

section
variable {lower : String → String} {provider : Provider}

/-- The exception an error of the provider ends with. -/
def ProviderError.asked (lower : String → String) (error : ProviderError) : AskError :=
  if isDailyQuota lower error then .quotaExhausted error.message else .raised error.message

/-- What `_create` comes to after so many attempts that failed. -/
inductive Attempted (lower : String → String) (provider : Provider) (request : ChatRequest)
    (s : Asking) (failed : Nat) : EStateM.Result AskError Asking ChatResponse → Prop where
  | ok {response : ChatResponse} : provider (s.requests.length + failed) request = .ok response →
      Attempted lower provider request s failed (.ok response (s.sentTimes request (failed + 1)))
  | error {error : ProviderError} :
      provider (s.requests.length + failed) request = .error error →
      Attempted lower provider request s failed
        (.error (error.asked lower) (s.sentTimes request (failed + 1)))

/-- The day's quota is used up, which ends the run. Where the tools were named, a text that reports
a rejected tool call is taken for that instead. -/
def Refused (lower : String → String) (provider : Provider) (i : Nat) (request : ChatRequest)
    (message : String) : Prop :=
  ∃ error, provider i request = .error error ∧ isDailyQuota lower error = true ∧
    error.message = message ∧ (toolUseFailed message = true → request.toolChoice = .unsent)

/-- No answer before is that of the day's quota. -/
def NoQuotaBefore (lower : String → String) (provider : Provider) (s : Asking) (failed : Nat)
    (request : ChatRequest) : Prop :=
  ∀ i < failed, ∀ error, provider (s.requests.length + i) request = .error error →
    isDailyQuota lower error = false

theorem length_sent (s : Asking) (request : ChatRequest) :
    (s.sent request).requests.length = s.requests.length + 1 :=
  List.length_append

theorem Attempted.again {request : ChatRequest} {s : Asking} {failed : Nat}
    {result : EStateM.Result AskError Asking ChatResponse}
    (h : Attempted lower provider request (s.sent request) failed result) :
    Attempted lower provider request s (failed + 1) result := by
  have hindex : (s.sent request).requests.length + failed = s.requests.length + (failed + 1) := by
    rw [length_sent]
    omega
  cases h with
  | ok hanswer =>
      rw [hindex] at hanswer
      rw [Asking.sent_sentTimes]
      exact .ok hanswer
  | error hanswer =>
      rw [hindex] at hanswer
      rw [Asking.sent_sentTimes]
      exact .error hanswer

/-- By induction on the attempts left: the first one, and the rest if it is tried again. -/
theorem create_attempted (lower : String → String) (provider : Provider) (request : ChatRequest)
    (left : Nat) (s : Asking) :
    ∃ failed ≤ left, Attempted lower provider request s failed (create lower provider request left s) ∧
      NoQuotaBefore lower provider s failed request := by
  induction left generalizing s with
  | zero =>
      refine ⟨0, Nat.le_refl 0, ?_, fun i hi => absurd hi (Nat.not_lt_zero i)⟩
      rw [create]
      cases hanswer : provider s.requests.length request with
      | ok response => exact .ok hanswer
      | error error =>
          have hends := @Attempted.error lower _ _ s 0 _ hanswer
          dsimp only
          rw [ProviderError.asked] at hends
          split
          · rename_i hdaily
            rwa [if_pos hdaily] at hends
          · rename_i hdaily
            rwa [if_neg hdaily] at hends
  | succ left ih =>
      rw [create]
      cases hanswer : provider s.requests.length request with
      | ok response =>
          exact ⟨0, Nat.zero_le _, .ok hanswer, fun i hi => absurd hi (Nat.not_lt_zero i)⟩
      | error error =>
          have hends := @Attempted.error lower _ _ s 0 _ hanswer
          rw [ProviderError.asked] at hends
          dsimp only
          split
          · rename_i hdaily
            rw [if_pos hdaily] at hends
            exact ⟨0, Nat.zero_le _, hends, fun i hi => absurd hi (Nat.not_lt_zero i)⟩
          · rename_i hdaily
            rw [if_neg hdaily] at hends
            split
            · obtain ⟨failed, hle, hrest, hclean⟩ := ih (s.sent request)
              refine ⟨failed + 1, Nat.succ_le_succ hle, hrest.again, fun i hi other hother => ?_⟩
              cases i with
              | zero =>
                  rw [Nat.add_zero, hanswer] at hother
                  cases hother
                  exact Bool.eq_false_iff.mpr hdaily
              | succ i =>
                  refine hclean i (Nat.lt_of_succ_lt_succ hi) other ?_
                  rw [length_sent, Nat.add_right_comm]
                  exact hother
            · exact ⟨0, Nat.zero_le _, hends, fun i hi => absurd hi (Nat.not_lt_zero i)⟩

theorem tryCall_some {toolChoice : ToolChoice} {s s' : Asking} {response : ChatResponse}
    (hcall : tryCall lower provider toolChoice s = .ok (some response) s') :
    call lower provider toolChoice s = .ok response s' := by
  rw [tryCall] at hcall
  split at hcall
  · rename_i hresult
    cases hcall
    exact hresult
  · split at hcall
    · cases hcall
    · cases hcall

theorem tryCall_error {toolChoice : ToolChoice} {s s' : Asking} {error : AskError}
    (hcall : tryCall lower provider toolChoice s = .error error s') :
    call lower provider toolChoice s = .error error s' ∧ toolUseFailed error.text = false := by
  rw [tryCall] at hcall
  split at hcall
  · cases hcall
  · rename_i hresult
    split at hcall
    · cases hcall
    · rename_i hkept
      cases hcall
      exact ⟨hresult, Bool.eq_false_iff.mpr hkept⟩

theorem text_asked (lower : String → String) (error : ProviderError) :
    (error.asked lower).text = error.message := by
  rw [ProviderError.asked]
  split <;> rfl

end

/-! ## The conversation -/

/-- A tool answers a call with its text. -/
def Answers [PyFloat ℚ] (tool : Tool) (call : ToolCall) (text : String) : Prop :=
  tool call.name (argumentsOf call) = .ok text

/-- The last that was said, after the turns: nothing, or a response that does not stop for tools. -/
inductive SaidLast (heard : ChatResponse → Prop) : List ChatMessage → Prop where
  | nothing : SaidLast heard []
  | response {response : ChatResponse} : heard response →
      (response.finishReason ≠ "tool_calls" ∨ response.toolCalls = []) →
      SaidLast heard [response.message]

/-- What a request looks like: answered turns after the opening, with the tools; and past them,
with what was said last, the question for the answer, with no tool to call. -/
inductive Asks [PyFloat ℚ] (opening : List ChatMessage) (tool : Tool) (heard : ChatResponse → Prop) :
    ChatRequest → Prop where
  | turn {n : Nat} {turns : List ChatMessage} : n < maxToolRounds → Turns (Answers tool) n turns →
      Asks opening tool heard ⟨opening ++ turns, .auto⟩
  | answer {n : Nat} {turns said : List ChatMessage} {toolChoice : ToolChoice} :
      n ≤ maxToolRounds → Turns (Answers tool) n turns → SaidLast heard said → toolChoice ≠ .auto →
      Asks opening tool heard ⟨opening ++ turns ++ said ++ [.user FINAL_INSTRUCTION], toolChoice⟩

/-- The response came to one of these requests. -/
def Heard (provider : Provider) (requests : List ChatRequest) (response : ChatResponse) : Prop :=
  ∃ (i : Nat) (request : ChatRequest), requests[i]? = some request ∧
    provider i request = .ok response

theorem Heard.append {provider : Provider} {requests : List ChatRequest} {response : ChatResponse}
    (h : Heard provider requests response) (more : List ChatRequest) :
    Heard provider (requests ++ more) response := by
  obtain ⟨i, request, hrequest, hanswer⟩ := h
  have hlt := (List.getElem?_eq_some_iff.mp hrequest).1
  exact ⟨i, request, (List.getElem?_append_left hlt).trans hrequest, hanswer⟩

theorem SaidLast.mono {heard heard' : ChatResponse → Prop} {said : List ChatMessage}
    (h : SaidLast heard said) (hmono : ∀ response, heard response → heard' response) :
    SaidLast heard' said := by
  cases h with
  | nothing => exact .nothing
  | response hheard hstops => exact .response (hmono _ hheard) hstops

theorem Asks.mono [PyFloat ℚ] {opening : List ChatMessage} {tool : Tool}
    {heard heard' : ChatResponse → Prop} {request : ChatRequest} (h : Asks opening tool heard request)
    (hmono : ∀ response, heard response → heard' response) : Asks opening tool heard' request := by
  cases h with
  | turn hn hturns => exact .turn hn hturns
  | answer hn hturns hsaid hchoice => exact .answer hn hturns (hsaid.mono hmono) hchoice

section
variable [PyFloat ℚ] (lower : String → String) (provider : Provider) (opening : List ChatMessage)
  (tool : Tool)

/-- A state between two calls, after so many calls and responses. -/
structure Sane (calls responses : Nat) (s : Asking) : Prop where
  asked : ∀ request ∈ s.requests, Asks opening tool (Heard provider s.requests) request
  sent : s.requests.length ≤ calls * maxRateLimitRetries
  counted : s.llmCalls = responses
  clean : ∀ i request message, s.requests[i]? = some request →
    ¬ Refused lower provider i request message

/-- A state in which an exception ended the call. -/
structure Ended (calls responses : Nat) (error : AskError) (s : Asking) : Prop where
  asked : ∀ request ∈ s.requests, Asks opening tool (Heard provider s.requests) request
  sent : s.requests.length ≤ calls * maxRateLimitRetries
  counted : s.llmCalls ≤ responses
  /-- Only the last request can have met the day's quota, and then it is what ended the call. -/
  clean : ∀ i request message, s.requests[i]? = some request →
    Refused lower provider i request message →
    i + 1 = s.requests.length ∧ error = .quotaExhausted message
  quota : ∀ message, error = .quotaExhausted message → ∃ i request, s.requests[i]? = some request ∧
    Refused lower provider i request message

variable {lower provider opening tool} {calls responses : Nat} {s s' : Asking}

/-- All that is asked, once more requests are sent. -/
theorem asks_sentTimes {request : ChatRequest} {count : Nat}
    (hasked : ∀ other ∈ s.requests, Asks opening tool (Heard provider s.requests) other)
    (hasks : Asks opening tool (Heard provider s.requests) request) :
    ∀ other ∈ (s.sentTimes request count).requests,
      Asks opening tool (Heard provider (s.sentTimes request count).requests) other := by
  intro other hother
  have hmono : ∀ response, Heard provider s.requests response →
      Heard provider (s.sentTimes request count).requests response :=
    fun response hheard => hheard.append (List.replicate count request)
  refine Asks.mono ?_ hmono
  rcases List.mem_append.mp hother with hbefore | hnew
  · exact hasked other hbefore
  · rwa [(List.mem_replicate.mp hnew).2]

omit [PyFloat ℚ] in
/-- A request of a state that sent more, or one of those it sent. -/
theorem getElem?_sentTimes {request other : ChatRequest} {count i : Nat}
    (h : (s.sentTimes request count).requests[i]? = some other) :
    s.requests[i]? = some other ∨
      ∃ k < count, i = s.requests.length + k ∧ other = request := by
  rw [Asking.sentTimes, List.getElem?_append] at h
  split at h
  · exact .inl h
  · rename_i hlate
    rw [List.getElem?_replicate] at h
    split at h
    · rename_i hlt
      cases h
      exact .inr ⟨i - s.requests.length, hlt, by omega, rfl⟩
    · cases h

theorem Sane.sentTimes {request : ChatRequest} {count : Nat}
    (h : Sane lower provider opening tool calls responses s)
    (hasks : Asks opening tool (Heard provider s.requests) request)
    (hcount : count ≤ maxRateLimitRetries)
    (hclean : ∀ k < count, ∀ message,
      ¬ Refused lower provider (s.requests.length + k) request message) :
    Sane lower provider opening tool (calls + 1) responses (s.sentTimes request count) where
  asked := asks_sentTimes h.asked hasks
  sent := by
    have hsent := h.sent
    rw [Asking.sentTimes, List.length_append, List.length_replicate, Nat.succ_mul]
    omega
  counted := h.counted
  clean := by
    intro i other message hother hrefused
    rcases getElem?_sentTimes hother with hbefore | ⟨k, hk, rfl, rfl⟩
    · exact h.clean i other message hbefore hrefused
    · exact hclean k hk message hrefused

omit [PyFloat ℚ] in
theorem NoQuotaBefore.not_refused {request : ChatRequest} {failed k : Nat} {message : String}
    (h : NoQuotaBefore lower provider s failed request) (hk : k < failed) :
    ¬ Refused lower provider (s.requests.length + k) request message := by
  rintro ⟨error, hanswer, hquota, -⟩
  rw [h k hk error hanswer] at hquota
  cases hquota

/-- A call that returns went on from a sound state to a sound state. -/
theorem call_ok {toolChoice : ToolChoice} {response : ChatResponse}
    (h : Sane lower provider opening tool calls responses s)
    (hasks : Asks opening tool (Heard provider s.requests) ⟨s.messages, toolChoice⟩)
    (hcall : call lower provider toolChoice s = .ok response s') :
    Sane lower provider opening tool (calls + 1) (responses + 1) s' ∧
      s'.messages = s.messages ++ [response.message] ∧ Heard provider s'.requests response := by
  obtain ⟨failed, hle, hattempted, hclean⟩ := create_attempted lower provider
    ⟨s.messages, toolChoice⟩ (maxRateLimitRetries - 1) s
  rw [call] at hcall
  generalize create lower provider ⟨s.messages, toolChoice⟩ (maxRateLimitRetries - 1) s = result
    at hcall hattempted
  cases hattempted with
  | error hanswer => cases hcall
  | ok hanswer =>
      cases hcall
      have hall : ∀ k < failed + 1, ∀ message,
          ¬ Refused lower provider (s.requests.length + k) ⟨s.messages, toolChoice⟩ message := by
        intro k hk message hrefused
        rcases Nat.lt_succ_iff_lt_or_eq.mp hk with hlt | rfl
        · exact hclean.not_refused hlt hrefused
        · obtain ⟨error, herror, -⟩ := hrefused
          rw [hanswer] at herror
          cases herror
      have hsent := h.sentTimes hasks (Nat.succ_le_of_lt (Nat.lt_of_le_of_lt hle (by decide))) hall
      refine ⟨⟨hsent.asked, hsent.sent, congrArg (· + 1) h.counted, hsent.clean⟩, rfl,
        s.requests.length + failed, ⟨s.messages, toolChoice⟩, ?_, hanswer⟩
      show (s.requests ++ List.replicate (failed + 1) _)[s.requests.length + failed]? = _
      rw [List.getElem?_append_right (Nat.le_add_right _ _), Nat.add_sub_cancel_left,
        List.getElem?_replicate, if_pos (Nat.lt_succ_self failed)]

omit [PyFloat ℚ] in
/-- How a call raises: with the last of the requests it sent, none of which met the day's quota
before. -/
theorem call_failed {toolChoice : ToolChoice} {error : AskError}
    (hcall : call lower provider toolChoice s = .error error s') :
    ∃ failed < maxRateLimitRetries, ∃ raised, s' = s.sentTimes ⟨s.messages, toolChoice⟩ (failed + 1) ∧
      provider (s.requests.length + failed) ⟨s.messages, toolChoice⟩ = .error raised ∧
      error = raised.asked lower ∧
      NoQuotaBefore lower provider s failed ⟨s.messages, toolChoice⟩ := by
  obtain ⟨failed, hle, hattempted, hclean⟩ := create_attempted lower provider
    ⟨s.messages, toolChoice⟩ (maxRateLimitRetries - 1) s
  have hlt : failed < maxRateLimitRetries := Nat.lt_of_le_of_lt hle (by decide)
  rw [call] at hcall
  generalize create lower provider ⟨s.messages, toolChoice⟩ (maxRateLimitRetries - 1) s = result
    at hcall hattempted
  cases hattempted with
  | ok hanswer => cases hcall
  | @error raised hanswer =>
      cases hcall
      exact ⟨failed, hlt, raised, rfl, hanswer, rfl, hclean⟩

/-- A call that raises has sent requests and nothing else. -/
theorem call_error {toolChoice : ToolChoice} {error : AskError}
    (h : Sane lower provider opening tool calls responses s)
    (hasks : Asks opening tool (Heard provider s.requests) ⟨s.messages, toolChoice⟩)
    (hcall : call lower provider toolChoice s = .error error s')
    (hkept : toolUseFailed error.text = true → toolChoice = .unsent) :
    Ended lower provider opening tool (calls + 1) responses error s' := by
  obtain ⟨failed, hlt, raised, rfl, hanswer, rfl, hclean⟩ := call_failed hcall
  rw [text_asked] at hkept
  have hlength : (s.sentTimes ⟨s.messages, toolChoice⟩ (failed + 1)).requests.length
      = s.requests.length + (failed + 1) := by
    rw [Asking.sentTimes, List.length_append, List.length_replicate]
  refine ⟨asks_sentTimes h.asked hasks, ?_, Nat.le_of_eq h.counted, ?_, ?_⟩
  · have hsent := h.sent
    rw [hlength, Nat.succ_mul]
    omega
  · intro i other message hother hrefused
    rcases getElem?_sentTimes hother with hbefore | ⟨k, hk, rfl, rfl⟩
    · exact absurd hrefused (h.clean i other message hbefore)
    · rcases Nat.lt_succ_iff_lt_or_eq.mp hk with hearlier | rfl
      · exact absurd hrefused (hclean.not_refused hearlier)
      · obtain ⟨refusal, hrefusal, hquota, rfl, -⟩ := hrefused
        rw [hanswer] at hrefusal
        cases hrefusal
        refine ⟨by omega, ?_⟩
        rw [ProviderError.asked, if_pos hquota]
  · intro message hmessage
    have hquota : isDailyQuota lower raised = true := by
      by_contra hnot
      rw [ProviderError.asked, if_neg hnot] at hmessage
      cases hmessage
    rw [ProviderError.asked, if_pos hquota] at hmessage
    cases hmessage
    refine ⟨s.requests.length + failed, ⟨s.messages, toolChoice⟩, ?_,
      raised, hanswer, hquota, rfl, hkept⟩
    show (s.requests ++ List.replicate (failed + 1) _)[s.requests.length + failed]? = _
    rw [List.getElem?_append_right (Nat.le_add_right _ _), Nat.add_sub_cancel_left,
      List.getElem?_replicate, if_pos (Nat.lt_succ_self failed)]

/-- A call whose tool call the provider rejected leaves a sound state. -/
theorem tryCall_none {toolChoice : ToolChoice}
    (h : Sane lower provider opening tool calls responses s)
    (hasks : Asks opening tool (Heard provider s.requests) ⟨s.messages, toolChoice⟩)
    (hchoice : toolChoice ≠ .unsent)
    (hcall : tryCall lower provider toolChoice s = .ok none s') :
    Sane lower provider opening tool (calls + 1) responses s' ∧ s'.messages = s.messages ∧
      ∀ response, Heard provider s.requests response → Heard provider s'.requests response := by
  rw [tryCall] at hcall
  cases hresult : call lower provider toolChoice s with
  | ok response mid =>
      rw [hresult] at hcall
      cases hcall
  | error error mid =>
      rw [hresult] at hcall
      dsimp only at hcall
      split at hcall
      · rename_i hrejected
        cases hcall
        obtain ⟨failed, hlt, raised, rfl, hanswer, rfl, hclean⟩ := call_failed hresult
        rw [text_asked] at hrejected
        refine ⟨h.sentTimes hasks hlt fun k hk message hrefused => ?_, rfl,
          fun response hheard => hheard.append _⟩
        rcases Nat.lt_succ_iff_lt_or_eq.mp hk with hearlier | rfl
        · exact hclean.not_refused hearlier hrefused
        · obtain ⟨refusal, hrefusal, -, rfl, hunsent⟩ := hrefused
          rw [hanswer] at hrefusal
          cases hrefusal
          exact hchoice (hunsent hrejected)
      · cases hcall

/-! ## The tool loop -/

/-- The calls of a turn that were all answered. By induction on the calls. -/
theorem runToolCalls_ok {toolCalls : List ToolCall} (h : runToolCalls tool toolCalls s = .ok () s') :
    ∃ texts, List.Forall₂ (Answers tool) toolCalls texts ∧
      s'.messages = s.messages ++ List.zipWith ToolCall.reply toolCalls texts ∧
      s'.requests = s.requests ∧ s'.llmCalls = s.llmCalls := by
  induction toolCalls generalizing s with
  | nil =>
      cases h
      exact ⟨[], .nil, (List.append_nil _).symm, rfl, rfl⟩
  | cons call rest ih =>
      rw [runToolCalls] at h
      split at h
      · cases h
      · rename_i text htext
        obtain ⟨texts, hrest, hmessages, hrequests, hcounted⟩ := ih h
        refine ⟨text :: texts, .cons htext hrest, ?_, hrequests, hcounted⟩
        rw [hmessages, Asking.say, List.append_assoc]
        rfl

theorem runToolCalls_error {toolCalls : List ToolCall} {error : AskError}
    (h : runToolCalls tool toolCalls s = .error error s') :
    (∃ message, error = .raised message) ∧ s'.requests = s.requests ∧ s'.llmCalls = s.llmCalls := by
  induction toolCalls generalizing s with
  | nil => cases h
  | cons call rest ih =>
      rw [runToolCalls] at h
      split at h
      · cases h
        exact ⟨⟨_, rfl⟩, rfl, rfl⟩
      · obtain ⟨hraised, hrequests, hcounted⟩ := ih h
        exact ⟨hraised, hrequests, hcounted⟩

theorem Sane.congr (h : Sane lower provider opening tool calls responses s)
    (hrequests : s'.requests = s.requests) (hcounted : s'.llmCalls = s.llmCalls) :
    Sane lower provider opening tool calls responses s' where
  asked := by rw [hrequests]; exact h.asked
  sent := by rw [hrequests]; exact h.sent
  counted := hcounted.trans h.counted
  clean := by rw [hrequests]; exact h.clean

/-- An exception that is none of the provider's. -/
theorem Sane.ended (h : Sane lower provider opening tool calls responses s) (message : String) :
    Ended lower provider opening tool calls responses (.raised message) s where
  asked := h.asked
  sent := h.sent
  counted := Nat.le_of_eq h.counted
  clean := fun i request refusal hrequest hrefused =>
    absurd hrefused (h.clean i request refusal hrequest)
  quota := fun refusal hrefusal => by cases hrefusal

theorem Ended.mono {calls' responses' : Nat} {error : AskError}
    (h : Ended lower provider opening tool calls responses error s) (hcalls : calls ≤ calls')
    (hresponses : responses ≤ responses') :
    Ended lower provider opening tool calls' responses' error s where
  asked := h.asked
  sent := h.sent.trans (Nat.mul_le_mul_right _ hcalls)
  counted := h.counted.trans hresponses
  clean := h.clean
  quota := h.quota

/-- The text is that of a response. -/
def IsResponse (provider : Provider) (s : Asking) (text : String) : Prop :=
  ∃ response, Heard provider s.requests response ∧ text = response.content.getD ""

/-- A state after the tool loop. -/
structure Looped (lower : String → String) (provider : Provider) (opening : List ChatMessage)
    (tool : Tool) (answer : String) (s : Asking) : Prop where
  sane : ∃ calls responses, calls ≤ maxToolRounds ∧ responses ≤ maxToolRounds ∧
    Sane lower provider opening tool calls responses s
  said : ∃ n turns said, n ≤ maxToolRounds ∧ Turns (Answers tool) n turns ∧
    SaidLast (Heard provider s.requests) said ∧ s.messages = opening ++ turns ++ said
  answer : answer = "" ∨ IsResponse provider s answer

/-- The tool loop after so many answered turns. By induction on the turns left. -/
theorem toolRounds_spec {left n : Nat} {turns : List ChatMessage}
    (hleft : n + left = maxToolRounds) (hturns : Turns (Answers tool) n turns)
    (hmessages : s.messages = opening ++ turns)
    (h : Sane lower provider opening tool n n s) :
    (∀ answer s', toolRounds lower provider tool left s = .ok answer s' →
      Looped lower provider opening tool answer s') ∧
    ∀ error s', toolRounds lower provider tool left s = .error error s' →
      Ended lower provider opening tool maxToolRounds maxToolRounds error s' := by
  induction left generalizing n turns s with
  | zero =>
      obtain rfl : n = maxToolRounds := hleft
      refine ⟨fun answer s' hloop => ?_, fun error s' hloop => ?_⟩
      · cases hloop
        exact ⟨⟨_, _, Nat.le_refl _, Nat.le_refl _, h⟩,
          ⟨_, turns, [], Nat.le_refl _, hturns, .nothing, by rw [hmessages, List.append_nil]⟩,
          .inl rfl⟩
      · cases hloop
  | succ left ih =>
      have hlt : n < maxToolRounds := by omega
      have hasks : Asks opening tool (Heard provider s.requests) ⟨s.messages, .auto⟩ := by
        rw [hmessages]
        exact .turn hlt hturns
      rw [toolRounds]
      cases hcall : tryCall lower provider .auto s with
      | error error mid =>
          rw [askM_bind_error hcall]
          refine ⟨fun answer s' hloop => (by cases hloop), fun error s' hloop => ?_⟩
          cases hloop
          obtain ⟨hraises, hkept⟩ := tryCall_error hcall
          refine (call_error h hasks hraises fun hrejected => ?_).mono hlt (Nat.le_of_lt hlt)
          rw [hkept] at hrejected
          cases hrejected
      | ok answered mid =>
          rw [askM_bind_ok hcall]
          cases answered with
          | none =>
              obtain ⟨hsane, hsame, -⟩ := tryCall_none h hasks (by decide) hcall
              refine ⟨fun answer s' hloop => ?_, fun error s' hloop => (by cases hloop)⟩
              cases hloop
              exact ⟨⟨_, _, hlt, Nat.le_of_lt hlt, hsane⟩,
                ⟨_, turns, [], Nat.le_of_lt hlt, hturns, .nothing, by
                  rw [hsame, hmessages, List.append_nil]⟩, .inl rfl⟩
          | some response =>
              obtain ⟨hsane, hsaid, hheard⟩ := call_ok h hasks (tryCall_some hcall)
              dsimp only
              split
              · rename_i hstops
                rw [Bool.or_eq_true, decide_eq_true_eq, List.isEmpty_iff] at hstops
                refine ⟨fun answer s' hloop => ?_, fun error s' hloop => (by cases hloop)⟩
                cases hloop
                exact ⟨⟨_, _, hlt, hlt, hsane⟩,
                  ⟨_, turns, [response.message], Nat.le_of_lt hlt, hturns,
                    .response hheard hstops, by rw [hsaid, hmessages]⟩,
                  .inr ⟨response, hheard, rfl⟩⟩
              · rename_i hgoes
                rw [Bool.or_eq_true, decide_eq_true_eq, List.isEmpty_iff, not_or] at hgoes
                cases htools : runToolCalls tool response.toolCalls mid with
                | error error last =>
                    rw [askM_bind_error htools]
                    refine ⟨fun answer s' hloop => (by cases hloop), fun error s' hloop => ?_⟩
                    cases hloop
                    obtain ⟨⟨message, rfl⟩, hrequests, hcounted⟩ := runToolCalls_error htools
                    exact ((hsane.congr hrequests hcounted).ended message).mono hlt hlt
                | ok u last =>
                    rw [askM_bind_ok htools]
                    obtain ⟨texts, htexts, hreplies, hrequests, hcounted⟩ := runToolCalls_ok htools
                    have hnext : Turns (Answers tool) (n + 1) (turns ++ response.message
                        :: List.zipWith ToolCall.reply response.toolCalls texts) :=
                      .turn hturns hgoes.2 htexts
                    refine ih (by omega) hnext ?_ (hsane.congr hrequests hcounted)
                    rw [hreplies, hsaid, hmessages, List.append_assoc, List.append_assoc]
                    rfl

/-! ## The answer -/

/-- A state in which the answer was read as a verdict. -/
structure Finished (lower : String → String) (provider : Provider) (opening : List ChatMessage)
    (tool : Tool) (validate : Validate) (verdict : ℚ × String) (s : Asking) : Prop where
  sane : ∃ calls responses, calls ≤ maxToolRounds + 2 ∧ responses ≤ maxToolRounds + 1 ∧
    Sane lower provider opening tool calls responses s
  verdict : ∃ text, IsResponse provider s text ∧ parseVerdict validate text = .ok verdict

variable {answer : String}

/-- The state that asks for the answer. -/
theorem Looped.asks (h : Looped lower provider opening tool answer s) {toolChoice : ToolChoice}
    (hchoice : toolChoice ≠ .auto) :
    Asks opening tool (Heard provider s.requests)
      ⟨(s.say (.user FINAL_INSTRUCTION)).messages, toolChoice⟩ := by
  obtain ⟨n, turns, said, hn, hturns, hsaid, hmessages⟩ := h.said
  rw [Asking.say, hmessages]
  exact .answer hn hturns hsaid hchoice

/-- Asked for the answer: a response, or an exception. -/
theorem askAgain_spec (h : Looped lower provider opening tool answer s) :
    (∀ response s', askAgain lower provider (s.say (.user FINAL_INSTRUCTION)) = .ok response s' →
      (∃ calls responses, calls ≤ maxToolRounds + 2 ∧ responses ≤ maxToolRounds + 1 ∧
        Sane lower provider opening tool calls responses s') ∧
      IsResponse provider s' (response.content.getD "")) ∧
    ∀ error s', askAgain lower provider (s.say (.user FINAL_INSTRUCTION)) = .error error s' →
      Ended lower provider opening tool (maxToolRounds + 2) (maxToolRounds + 1) error s' := by
  obtain ⟨calls, responses, hcalls, hresponses, hsane⟩ := h.sane
  have hasks : Asks opening tool (Heard provider s.requests)
      ⟨(s.say (.user FINAL_INSTRUCTION)).messages, .none⟩ := h.asks (by decide)
  have hstart : Sane lower provider opening tool calls responses
      (s.say (.user FINAL_INSTRUCTION)) := hsane.congr rfl rfl
  rw [askAgain]
  cases htry : tryCall lower provider .none (s.say (.user FINAL_INSTRUCTION)) with
  | error error mid =>
      rw [askM_bind_error htry]
      refine ⟨fun response s' hcall => (by cases hcall), fun error s' hcall => ?_⟩
      cases hcall
      obtain ⟨hraises, hkept⟩ := tryCall_error htry
      refine (call_error hstart hasks hraises fun hrejected => ?_).mono (by omega) (by omega)
      rw [hkept] at hrejected
      cases hrejected
  | ok answered mid =>
      rw [askM_bind_ok htry]
      cases answered with
      | some response =>
          obtain ⟨hdone, -, hheard⟩ := call_ok hstart hasks (tryCall_some htry)
          refine ⟨fun response s' hcall => ?_, fun error s' hcall => (by cases hcall)⟩
          cases hcall
          exact ⟨⟨_, _, by omega, by omega, hdone⟩, response, hheard, rfl⟩
      | none =>
          obtain ⟨hmid, hmessages, hmono⟩ := tryCall_none hstart hasks (by decide) htry
          have hasks' : Asks opening tool (Heard provider mid.requests) ⟨mid.messages, .unsent⟩ := by
            rw [hmessages]
            exact (h.asks (by decide)).mono hmono
          refine ⟨fun response s' hcall => ?_, fun error s' hcall => ?_⟩
          · obtain ⟨hdone, -, hheard⟩ := call_ok hmid hasks' hcall
            exact ⟨⟨_, _, by omega, by omega, hdone⟩, response, hheard, rfl⟩
          · exact (call_error hmid hasks' hcall fun _ => rfl).mono (by omega) (by omega)

/-- A text without braces is no verdict. -/
theorem parseVerdict_empty (validate : Validate) :
    parseVerdict validate "" = .error "no JSON object in the answer" := rfl

theorem finalVerdict_spec (validate : Validate) (h : Looped lower provider opening tool answer s) :
    (∀ verdict s', finalVerdict lower provider validate answer s = .ok verdict s' →
      Finished lower provider opening tool validate verdict s') ∧
    ∀ error s', finalVerdict lower provider validate answer s = .error error s' →
      Ended lower provider opening tool (maxToolRounds + 2) (maxToolRounds + 1) error s' := by
  obtain ⟨calls, responses, hcalls, hresponses, hsane⟩ := h.sane
  rw [finalVerdict]
  cases hparse : parseVerdict validate answer with
  | ok verdict =>
      refine ⟨fun verdict s' hfinal => ?_, fun error s' hfinal => (by cases hfinal)⟩
      cases hfinal
      refine ⟨⟨calls, responses, by omega, by omega, hsane⟩, answer, ?_, hparse⟩
      refine h.answer.resolve_left fun hempty => ?_
      rw [hempty, parseVerdict_empty] at hparse
      cases hparse
  | error message =>
      obtain ⟨hok, herror⟩ := askAgain_spec h
      dsimp only
      rw [askM_bind_modify]
      cases hagain : askAgain lower provider (s.say (.user FINAL_INSTRUCTION)) with
      | error error mid =>
          rw [askM_bind_error hagain]
          refine ⟨fun verdict s' hfinal => (by cases hfinal), fun error s' hfinal => ?_⟩
          cases hfinal
          exact herror _ _ hagain
      | ok response mid =>
          obtain ⟨hmid, hresponse⟩ := hok _ _ hagain
          rw [askM_bind_ok hagain]
          cases hlast : parseVerdict validate (response.content.getD "") with
          | ok verdict =>
              refine ⟨fun verdict s' hfinal => ?_, fun error s' hfinal => (by cases hfinal)⟩
              cases hfinal
              exact ⟨hmid, _, hresponse, hlast⟩
          | error message =>
              refine ⟨fun verdict s' hfinal => (by cases hfinal), fun error s' hfinal => ?_⟩
              cases hfinal
              obtain ⟨calls, responses, hcalls, hresponses, hsane⟩ := hmid
              exact (hsane.ended _).mono hcalls hresponses

end

/-! ## The conversation of a trade -/

/-- The calls of a request that nothing in it answers. In a turn there are none; the question for the
answer may follow a response that asked for calls and did not stop for them. -/
def LeftOpen (provider : Provider) (requests : List ChatRequest) (request : ChatRequest)
    (ids : List String) : Prop :=
  ids = [] ∨ request.toolChoice ≠ .auto ∧ ∃ response, Heard provider requests response ∧
    response.finishReason ≠ "tool_calls" ∧ ids = response.toolCalls.map ToolCall.id

/-- What `ask_cfo` promises of all it sends and of what it returns. -/
structure Converses [PyFloat ℚ] (lower : String → String) (provider : Provider)
    (opening : List ChatMessage) (tool : Tool) (validate : Validate)
    (result : Except String (Reply ℚ)) (s : Asking) : Prop where
  asks : ∀ request ∈ s.requests, Asks opening tool (Heard provider s.requests) request
  /-- The calls a request shows are answered in it, once and in order, but for those left open. -/
  answered : ∀ request ∈ s.requests, ∃ ids, LeftOpen provider s.requests request ids ∧
    calledIds request.messages = answeredIds request.messages ++ ids
  requests : s.requests.length ≤ (maxToolRounds + 2) * maxRateLimitRetries
  responses : s.llmCalls ≤ maxToolRounds + 1
  /-- Nothing is sent after the day's quota was used up. -/
  last : ∀ i request message, s.requests[i]? = some request →
    Refused lower provider i request message → i + 1 = s.requests.length
  /-- Then, and only then, there is no verdict. -/
  quota : ∀ message, result = .error message ↔ ∃ i request, s.requests[i]? = some request ∧
    Refused lower provider i request message
  /-- A verdict is what a response says. -/
  verdict : ∀ reply probability reasoning, result = .ok reply →
    reply.outcome = .ok probability reasoning → ∃ text, IsResponse provider s text ∧
      parseVerdict validate text = .ok (probability, reasoning)

/-- Messages before the first turn, which call no tool. -/
def CallsNothing (opening : List ChatMessage) : Prop :=
  calledIds opening = [] ∧ answeredIds opening = []

/-- Answered turns after the opening. -/
theorem answered_opening {answers : ToolCall → String → Prop} {n : Nat}
    {opening turns : List ChatMessage} (h : Turns answers n turns) (hopening : CallsNothing opening) :
    answeredIds (opening ++ turns) = calledIds (opening ++ turns) := by
  rw [answeredIds, List.flatMap_append, ← answeredIds, ← answeredIds, hopening.2, calledIds,
    List.flatMap_append, ← calledIds, ← calledIds, hopening.1, h.answered]

theorem Asks.answered [PyFloat ℚ] {opening : List ChatMessage} {tool : Tool} {provider : Provider}
    {requests : List ChatRequest} {request : ChatRequest}
    (h : Asks opening tool (Heard provider requests) request) (hopening : CallsNothing opening) :
    ∃ ids, LeftOpen provider requests request ids ∧
      calledIds request.messages = answeredIds request.messages ++ ids := by
  cases h with
  | turn hn hturns =>
      refine ⟨[], .inl rfl, ?_⟩
      rw [List.append_nil]
      exact (answered_opening hturns hopening).symm
  | @answer n turns said toolChoice hn hturns hsaid hchoice =>
      have hanswered := answered_opening hturns hopening
      have hids : calledIds (opening ++ turns ++ said ++ [.user FINAL_INSTRUCTION])
            = calledIds (opening ++ turns) ++ calledIds said ∧
          answeredIds (opening ++ turns ++ said ++ [.user FINAL_INSTRUCTION])
            = answeredIds (opening ++ turns) ++ answeredIds said := by
        simp [calledIds, answeredIds, ChatMessage.calledIds, ChatMessage.answeredIds]
      cases hsaid with
      | nothing =>
          refine ⟨[], .inl rfl, ?_⟩
          rw [hids.1, hids.2, hanswered]
          simp [calledIds, answeredIds]
      | @response response hheard hstops =>
          refine ⟨response.toolCalls.map ToolCall.id, ?_, ?_⟩
          · rcases hstops with hstops | hnone
            · exact .inr ⟨hchoice, response, hheard, hstops, rfl⟩
            · exact .inl (by rw [hnone, List.map_nil])
          · rw [hids.1, hids.2, hanswered]
            simp [calledIds, answeredIds, ChatResponse.message, ChatMessage.calledIds,
              ChatMessage.answeredIds]

/-- The first messages of the conversation. -/
def opening (variant prompt : String) : List ChatMessage :=
  (Asking.start (if variant = VARIANT_ADVERSARIAL then ADVERSARIAL_SYSTEM else NEUTRAL_SYSTEM)
    prompt).messages

theorem sane_start [PyFloat ℚ] (lower : String → String) (provider : Provider) (tool : Tool)
    (system prompt : String) :
    Sane lower provider (Asking.start system prompt).messages tool 0 0 (.start system prompt) where
  asked := List.forall_mem_nil _
  sent := Nat.le_of_eq (Nat.zero_mul _).symm
  counted := rfl
  clean := by
    intro i request message hrequest
    cases hrequest

section
variable [PyFloat ℚ] {lower : String → String} {provider : Provider} {opening : List ChatMessage}
  {tool : Tool} {validate : Validate} {s : Asking}

theorem Finished.converses (hopening : CallsNothing opening) {verdict : ℚ × String}
    (h : Finished lower provider opening tool validate verdict s) :
    Converses lower provider opening tool validate (endOf (.ok verdict s)).1 (endOf (.ok verdict s)).2
      where
  asks := by
    obtain ⟨calls, responses, hcalls, hresponses, hsane⟩ := h.sane
    exact hsane.asked
  answered := by
    obtain ⟨calls, responses, hcalls, hresponses, hsane⟩ := h.sane
    exact fun request hrequest => (hsane.asked request hrequest).answered hopening
  requests := by
    obtain ⟨calls, responses, hcalls, hresponses, hsane⟩ := h.sane
    exact hsane.sent.trans (Nat.mul_le_mul_right _ hcalls)
  responses := by
    obtain ⟨calls, responses, hcalls, hresponses, hsane⟩ := h.sane
    exact (Nat.le_of_eq hsane.counted).trans hresponses
  last := by
    obtain ⟨calls, responses, hcalls, hresponses, hsane⟩ := h.sane
    intro i request message hrequest hrefused
    exact absurd hrefused (hsane.clean i request message hrequest)
  quota := by
    obtain ⟨calls, responses, hcalls, hresponses, hsane⟩ := h.sane
    intro message
    constructor
    · intro hresult
      cases hresult
    · rintro ⟨i, request, hrequest, hrefused⟩
      exact absurd hrefused (hsane.clean i request message hrequest)
  verdict := by
    obtain ⟨text, htext, hparse⟩ := h.verdict
    intro reply probability reasoning hreply houtcome
    cases hreply
    cases houtcome
    exact ⟨text, htext, hparse⟩

theorem Ended.converses (hopening : CallsNothing opening) {error : AskError}
    (h : Ended lower provider opening tool (maxToolRounds + 2) (maxToolRounds + 1) error s) :
    Converses lower provider opening tool validate (endOf (.error error s)).1
      (endOf (.error error s)).2 := by
  have hanswered := fun request hrequest => (h.asked request hrequest).answered hopening
  have hlast := fun i request message hrequest hrefused =>
    (h.clean i request message hrequest hrefused).1
  cases error with
  | quotaExhausted message =>
      refine ⟨h.asked, hanswered, h.sent, h.counted, hlast, fun other => ?_, ?_⟩
      · constructor
        · intro hresult
          cases hresult
          exact h.quota message rfl
        · rintro ⟨i, request, hrequest, hrefused⟩
          have hsame := (h.clean i request other hrequest hrefused).2
          cases hsame
          rfl
      · intro reply probability reasoning hreply
        cases hreply
  | raised message =>
      refine ⟨h.asked, hanswered, h.sent, h.counted, hlast, fun other => ?_, ?_⟩
      · constructor
        · intro hresult
          cases hresult
        · rintro ⟨i, request, hrequest, hrefused⟩
          have hsame := (h.clean i request other hrequest hrefused).2
          cases hsame
      · intro reply probability reasoning hreply houtcome
        cases hreply
        cases houtcome

end

theorem askCfo_converses [PyFloat ℚ] (lower : String → String) (provider : Provider) (tool : Tool)
    (validate : Validate) (variant prompt : String) :
    Converses lower provider (opening variant prompt) tool validate
      (askCfo lower provider tool validate variant prompt).1
      (askCfo lower provider tool validate variant prompt).2 := by
  rw [askCfo]
  have hmessages : (Asking.start (if variant = VARIANT_ADVERSARIAL then ADVERSARIAL_SYSTEM
      else NEUTRAL_SYSTEM) prompt).messages = opening variant prompt ++ [] :=
    (List.append_nil _).symm
  have hopening : CallsNothing (opening variant prompt) := ⟨rfl, rfl⟩
  obtain ⟨hok, herror⟩ := toolRounds_spec (Nat.zero_add maxToolRounds) .nil hmessages
    (sane_start lower provider tool _ prompt)
  cases hloop : toolRounds lower provider tool maxToolRounds (.start _ prompt) with
  | error error s =>
      rw [askM_bind_error hloop]
      exact ((herror _ _ hloop).mono (by omega) (by omega)).converses hopening
  | ok answer s =>
      rw [askM_bind_ok hloop]
      obtain ⟨hok, herror⟩ := finalVerdict_spec validate (hok _ _ hloop)
      cases hfinal : finalVerdict lower provider validate answer s with
      | ok verdict last => exact (hok _ _ hfinal).converses hopening
      | error error last => exact (herror _ _ hfinal).converses hopening

/-- A trade put to the CFO with the market as of a moment. -/
def askOn [PyFloat ℚ] (F : FloatArith) (lower : String → String)
    (readFloat : Json ℚ → Except String ℚ) (exception : String → Json ℚ → String)
    (provider : Provider) (validate : Validate) (history : MarketHistory) (moment : Int)
    (variant prompt : String) : Except String (Reply ℚ) × Asking :=
  askCfo lower provider (viewTool F lower readFloat exception (history.asOf moment)) validate variant
    prompt

/-- The CFO of a trade converses as its provider expects, and sees only the past: histories that
agree up to the moment of the trade give the same requests and the same verdict. -/
theorem askOn_past [PyFloat ℚ] (F : FloatArith) (lower : String → String)
    (readFloat : Json ℚ → Except String ℚ) (exception : String → Json ℚ → String)
    (provider : Provider) (validate : Validate) (variant prompt : String) {moment : Int}
    {builds builds' : List BaselineSnapshot} {sold sold' listed listed' : List (FeedSale ℚ)}
    (h : SamePast moment (MarketHistory.build builds sold listed)
      (MarketHistory.build builds' sold' listed')) :
    askOn F lower readFloat exception provider validate (.build builds sold listed) moment variant
        prompt
      = askOn F lower readFloat exception provider validate (.build builds' sold' listed') moment
          variant prompt ∧
    Converses lower provider (opening variant prompt)
      (viewTool F lower readFloat exception ((MarketHistory.build builds sold listed).asOf moment))
      validate
      (askOn F lower readFloat exception provider validate (.build builds sold listed) moment variant
        prompt).1
      (askOn F lower readFloat exception provider validate (.build builds sold listed) moment variant
        prompt).2 := by
  refine ⟨?_, askCfo_converses lower provider _ validate variant prompt⟩
  have htool : ∀ name arguments,
      runTool F lower readFloat ((MarketHistory.build builds sold listed).asOf moment) name arguments
        = runTool F lower readFloat ((MarketHistory.build builds' sold' listed').asOf moment) name
          arguments := fun name arguments =>
    runTool_sameShown F lower readFloat (sameShown_of_samePast h) name arguments
  rw [askOn, askOn]
  congr 1
  funext name arguments
  simp only [viewTool, htool]

/-- A model that asks for the market floor, is told to wait once, and answers. -/
def floorProvider : Provider := fun i _ =>
  if i = 0 then
    .ok ⟨none, [⟨"call-1", "fetch_market_floor",
      some "\x7b\"market_hash_name\": \"AK-47 | Redline (Field-Tested)\"\x7d"⟩], "tool_calls", 10, 5⟩
  else if i = 1 then .error ⟨"Rate limit reached", some 429⟩
  else .ok ⟨some "\x7b\"probability_of_profit\": 1\x7d", [], "stop", 20, 5⟩

def validateWhole : Validate := fun document =>
  match Json.getField document "probability_of_profit" with
  | some (.int 1) => .ok (1, "")
  | _ => .error "Input should be less than or equal to 1"

theorem askOn_past_redline :
    (@askOn wholeFloats .exact id readWholeFloat (fun name _ => name) floorProvider validateWhole
        redlineHistory 7200000000 "neutral" "The bot bought").2.requests.length = 3 ∧
      @askOn wholeFloats .exact id readWholeFloat (fun name _ => name) floorProvider validateWhole
          redlineHistory 7200000000 "neutral" "The bot bought"
        = @askOn wholeFloats .exact id readWholeFloat (fun name _ => name) floorProvider validateWhole
          redlineHistoryAfter 7200000000 "neutral" "The bot bought" :=
  ⟨by decide +kernel, (@askOn_past wholeFloats .exact id readWholeFloat (fun name _ => name)
    floorProvider validateWhole "neutral" "The bot bought" 7200000000 _ _ _ _ _ _
    (build_samePast rfl (by decide +kernel) rfl)).1⟩

end BrandSniper.Cfo
