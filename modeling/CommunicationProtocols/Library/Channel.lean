import Mathlib.Data.List.Basic
import Mathlib.Data.List.Flatten

/-!
# Byte streams between two ends

A reliable stream keeps the order of what is written, but not where one write ends and
the next begins: a read takes what it finds, up to the size it asks for. What was read
and what is still under way are together what was written.
-/

namespace CommunicationProtocols.Library

/-- A stream, with the writes made on it. -/
structure Channel (α : Type*) where
  messages : List (List α)
  delivered : List α
  inFlight : List α
  conserved : delivered ++ inFlight = messages.flatten

namespace Channel

variable {α : Type*}

/-- A stream nobody has written to. -/
def empty : Channel α := ⟨[], [], [], rfl⟩

def write (channel : Channel α) (message : List α) : Channel α where
  messages := channel.messages ++ [message]
  delivered := channel.delivered
  inFlight := channel.inFlight ++ message
  conserved := by
    rw [← List.append_assoc, channel.conserved, List.flatten_append, List.flatten_singleton]

/-- Take up to `n` elements off the stream. -/
def read (channel : Channel α) (n : Nat) : Channel α where
  messages := channel.messages
  delivered := channel.delivered ++ channel.inFlight.take n
  inFlight := channel.inFlight.drop n
  conserved := by
    rw [List.append_assoc, List.take_append_drop, channel.conserved]

/-- Several writes, one after the other. -/
def writeAll (channel : Channel α) (messages : List (List α)) : Channel α :=
  messages.foldl write channel

variable {channel : Channel α} {message : List α}

/-- What is under way comes from a message. -/
theorem mem_of_mem_inFlight {element : α} (member : element ∈ channel.inFlight) :
    ∃ message ∈ channel.messages, element ∈ message := by
  rw [← List.mem_flatten, ← channel.conserved]
  exact List.mem_append_right _ member

@[simp] theorem writeAll_nil (channel : Channel α) : channel.writeAll [] = channel := rfl

@[simp] theorem messages_writeAll (channel : Channel α) (messages : List (List α)) :
    (channel.writeAll messages).messages = channel.messages ++ messages := by
  induction messages generalizing channel with
  | nil => exact (List.append_nil _).symm
  | cons message messages ih =>
      change ((channel.write message).writeAll messages).messages = _
      rw [ih, write, List.append_assoc, List.singleton_append]

@[simp] theorem delivered_writeAll (channel : Channel α) (messages : List (List α)) :
    (channel.writeAll messages).delivered = channel.delivered := by
  induction messages generalizing channel with
  | nil => rfl
  | cons message messages ih => exact ih (channel.write message)

end Channel

end CommunicationProtocols.Library
