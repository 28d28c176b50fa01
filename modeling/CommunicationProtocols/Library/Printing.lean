import Mathlib.Data.List.Forall2

/-!
# Printing in two passes

A printer is run twice: without a place, to learn how many bytes it would write, and
with a place in a block of memory of that size. Every piece that is written as a C
string also leaves a NUL behind it, which the next piece overwrites.
-/

namespace CommunicationProtocols.Library

/-- Where a piece is put (nowhere, while sizes are computed) and the block of memory:
the number of bytes, unless printing fails, and the block afterwards. There is no
result if a byte is stored outside of the block. -/
def Printer := Option Nat → List UInt8 → Option (Option Nat × List UInt8)

/-- Store bytes in a block. -/
def storeAt (block : List UInt8) (place : Nat) (bytes : List UInt8) : Option (List UInt8) :=
  if place + bytes.length ≤ block.length then
    some (block.take place ++ bytes ++ block.drop (place + bytes.length))
  else none

namespace Printer

/-- Print nothing. -/
def nothing : Printer := fun _ block => some (some 0, block)

/-- Give up. -/
def failure : Printer := fun _ block => some (none, block)

/-- Copy a single byte. -/
def char (c : UInt8) : Printer
  | none, block => some (some 1, block)
  | some place, block => (storeAt block place [c]).map (some 1, ·)

/-- Print a C string with its NUL. -/
def string (text : List UInt8) : Printer
  | none, block => some (some text.length, block)
  | some place, block => (storeAt block place (text ++ [0])).map (some text.length, ·)

/-- Print one piece behind another. -/
def andThen (first second : Printer) : Printer := fun place block =>
  match first place block with
  | none => none
  | some (none, block) => some (none, block)
  | some (some written, block) =>
      match second (place.map (· + written)) block with
      | none => none
      | some (none, block) => some (none, block)
      | some (some later, block) => some (some (written + later), block)

/-- Print all pieces of a list. -/
def all : List Printer → Printer
  | [] => nothing
  | first :: rest => first.andThen (all rest)

/-- A printer prints a text: both passes give its length, and with space for one byte
more it is put in its place. The byte behind it may change, and is a NUL if the printer
ends with a C string; nothing else changes. -/
structure Prints (printer : Printer) (text : List UInt8) (terminated : Bool) : Prop where
  size : ∀ block, printer none block = some (some text.length, block)
  write : ∀ front old back last, old.length = text.length →
    ∃ last', printer (some front.length) (front ++ old ++ last :: back) =
        some (some text.length, front ++ text ++ last' :: back) ∧
      (terminated = true → last' = 0)

variable {first second : Printer} {front back text text' : List UInt8} {terminated terminated' : Bool}

/-- Bytes that are stored where there is room replace as many there. -/
theorem store_inside {old bytes : List UInt8} (long : old.length = bytes.length) :
    storeAt (front ++ old ++ back) front.length bytes = some (front ++ bytes ++ back) := by
  have enough : front.length + bytes.length ≤ (front ++ old ++ back).length := by
    simp only [List.length_append]
    omega
  have behind : (front ++ old ++ back).drop (front.length + bytes.length) = back := by
    rw [← long, ← List.length_append, List.drop_left]
  rw [storeAt, if_pos enough, behind, List.append_assoc front old back, List.take_left]

/-- Doing nothing prints the empty text. -/
theorem prints_nothing : Prints nothing [] false := by
  refine ⟨fun _ => rfl, fun front old back last long => ?_⟩
  obtain rfl := List.length_eq_zero_iff.mp long
  exact ⟨last, rfl, nofun⟩

/-- One character is printed without a NUL behind it. -/
theorem prints_char (c : UInt8) : Prints (char c) [c] false := by
  refine ⟨fun _ => rfl, fun front old back last long => ⟨last, ?_, nofun⟩⟩
  rw [char, store_inside long]
  rfl

/-- A string is printed with a NUL behind it. -/
theorem prints_string (text : List UInt8) : Prints (string text) text true := by
  refine ⟨fun _ => rfl, fun front old back last long => ⟨0, ?_, fun _ => rfl⟩⟩
  have stored : storeAt (front ++ (old ++ [last]) ++ back) front.length (text ++ [0]) =
      some (front ++ (text ++ [0]) ++ back) := store_inside (by simp [long])
  simp only [List.append_assoc, List.singleton_append] at stored ⊢
  rw [string, stored]
  rfl

/-- The second piece overwrites the byte behind the first one. -/
theorem Prints.andThen (prints : Prints first text terminated)
    (prints' : Prints second text' terminated') :
    Prints (first.andThen second) (text ++ text') terminated' := by
  constructor
  · intro block
    rw [Printer.andThen, prints.size]
    dsimp only [Option.map_none]
    rw [prints'.size, List.length_append]
  · intro front whole back last total
    rw [List.length_append] at total
    obtain ⟨old, old', rfl, long⟩ : ∃ before behind, whole = before ++ behind ∧
        before.length = text.length :=
      ⟨_, _, (List.take_append_drop text.length whole).symm, by rw [List.length_take]; omega⟩
    have long' : old'.length = text'.length := by
      rw [List.length_append] at total
      omega
    -- the byte behind the first piece is the first one of the second piece, or the last one
    obtain ⟨middle, behind, same, overwritten⟩ : ∃ middle behind,
        old' ++ last :: back = middle :: behind ∧ ∀ middle', ∃ old'' last'',
          old''.length = text'.length ∧ middle' :: behind = old'' ++ last'' :: back := by
      cases old' with
      | nil => exact ⟨last, back, rfl, fun middle' => ⟨[], middle', long', rfl⟩⟩
      | cons middle others =>
          exact ⟨middle, others ++ last :: back, rfl, fun middle' =>
            ⟨middle' :: others, last, long', rfl⟩⟩
    obtain ⟨middle', written, -⟩ := prints.write front old behind middle long
    obtain ⟨old'', last'', long'', same'⟩ := overwritten middle'
    obtain ⟨last', written', ends⟩ := prints'.write (front ++ text) old'' back last'' long''
    refine ⟨last', ?_, ends⟩
    have place : front.length + text.length = (front ++ text).length := List.length_append.symm
    rw [Printer.andThen, ← List.append_assoc front, List.append_assoc (front ++ old), same, written]
    dsimp only [Option.map_some]
    rw [place, same', ← List.append_assoc (front ++ text), written']
    dsimp only
    rw [List.length_append, ← List.append_assoc front]

/-- What a printer prints has one length. -/
theorem Prints.length_unique (prints : Prints first text terminated)
    (prints' : Prints first text' terminated') : text.length = text'.length := by
  have same := (prints.size []).symm.trans (prints'.size [])
  simpa using same

/-- The pieces of a list are printed one behind another. -/
theorem prints_all {printers : List Printer} {texts : List (List UInt8)}
    (prints : List.Forall₂ (fun printer text => ∃ terminated, Prints printer text terminated)
      printers texts) : Prints (all printers) texts.flatten false := by
  induction prints with
  | nil => exact prints_nothing
  | cons first _ ih =>
      obtain ⟨_, first⟩ := first
      exact first.andThen ih

/-- A printer that ends with a C string fills a block that is one byte longer than its text. -/
theorem Prints.fill (prints : Prints first text true) {block : List UInt8}
    (large : text.length < block.length) :
    first (some 0) block =
      some (some text.length, text ++ 0 :: block.drop (text.length + 1)) := by
  obtain ⟨last', written, ends⟩ := prints.write [] (block.take text.length)
    (block.drop (text.length + 1)) (block.get ⟨text.length, large⟩) (by simp; omega)
  rw [ends rfl] at written
  rw [List.nil_append, List.nil_append, List.get_eq_getElem, List.getElem_cons_drop,
    List.take_append_drop] at written
  exact written

end Printer

end CommunicationProtocols.Library
