import Mathlib.Data.List.Forall2

/-!
# Conversations with tools

A client sends the whole conversation with every request. A provider may answer
with calls of tools; the client then appends a message for each call and sends
the conversation again. A provider refuses a conversation in which a call has
no answer.

`Turns` is a conversation of answered turns: each asks for some calls, and what
follows are their answers, in order.
-/

namespace Kit

structure ToolCall where
  id : String
  name : String
  /-- The text of the arguments. -/
  arguments : Option String
  deriving DecidableEq

inductive ChatMessage where
  | system (content : String)
  | user (content : String)
  | assistant (content : Option String) (toolCalls : List ToolCall)
  | tool (callId name content : String)
  deriving DecidableEq

/-- Whether the provider may ask for calls, or is told of no tools at all. -/
inductive ToolChoice where
  | auto
  | none
  | unsent
  deriving DecidableEq

structure ChatRequest where
  messages : List ChatMessage
  toolChoice : ToolChoice
  deriving DecidableEq

structure ChatResponse where
  content : Option String
  toolCalls : List ToolCall
  finishReason : String
  promptTokens : Int
  completionTokens : Int

/-- What the client appends of a response. -/
def ChatResponse.message (response : ChatResponse) : ChatMessage :=
  .assistant response.content response.toolCalls

/-- The answer to a call. -/
def ToolCall.reply (call : ToolCall) (content : String) : ChatMessage :=
  .tool call.id call.name content

/-- Answered turns, where `answers` relates a call to the texts it may be answered with. -/
inductive Turns (answers : ToolCall → String → Prop) : Nat → List ChatMessage → Prop where
  | nil : Turns answers 0 []
  | turn {n : Nat} {messages : List ChatMessage} {content : Option String} {calls : List ToolCall}
      {texts : List String} : Turns answers n messages → calls ≠ [] →
      List.Forall₂ answers calls texts →
      Turns answers (n + 1)
        (messages ++ .assistant content calls :: List.zipWith ToolCall.reply calls texts)

section
variable {answers : ToolCall → String → Prop}

/-- The calls a message asks for. -/
def ChatMessage.calledIds : ChatMessage → List String
  | .assistant _ calls => calls.map ToolCall.id
  | _ => []

/-- The calls a message answers. -/
def ChatMessage.answeredIds : ChatMessage → List String
  | .tool callId _ _ => [callId]
  | _ => []

def calledIds (messages : List ChatMessage) : List String := messages.flatMap ChatMessage.calledIds

def answeredIds (messages : List ChatMessage) : List String :=
  messages.flatMap ChatMessage.answeredIds

theorem answeredIds_replies {calls : List ToolCall} {texts : List String}
    (h : List.Forall₂ answers calls texts) :
    calledIds (List.zipWith ToolCall.reply calls texts) = [] ∧
      answeredIds (List.zipWith ToolCall.reply calls texts) = calls.map ToolCall.id := by
  induction h with
  | nil => exact ⟨rfl, rfl⟩
  | cons _ _ ih => exact ⟨ih.1, congrArg _ ih.2⟩

/-- In answered turns each call is answered once, and in the order of the calls. -/
theorem Turns.answered {n : Nat} {messages : List ChatMessage} (h : Turns answers n messages) :
    answeredIds messages = calledIds messages := by
  induction h with
  | nil => rfl
  | @turn n messages content calls texts _ _ htexts ih =>
      obtain ⟨hcalled, hanswered⟩ := answeredIds_replies htexts
      have hsplit : ∀ replies, answeredIds (messages ++ .assistant content calls :: replies)
          = answeredIds messages ++ answeredIds replies := by
        intro replies
        rw [answeredIds, List.flatMap_append]
        rfl
      have hsplit' : ∀ replies, calledIds (messages ++ .assistant content calls :: replies)
          = calledIds messages ++ (calls.map ToolCall.id ++ calledIds replies) := by
        intro replies
        rw [calledIds, List.flatMap_append]
        rfl
      rw [hsplit, hsplit', ih, hanswered, hcalled, List.append_nil]

end

end Kit
