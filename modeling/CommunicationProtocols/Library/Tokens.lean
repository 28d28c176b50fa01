import Mathlib.Data.List.Basic

/-!
# Tokens of a string

The tokens of a string are its maximal pieces without separator, in the order in
which a tokenizer that is called again and again returns them. A tokenizer that
ends each token in place also leaves terminators in the string it worked on.
-/

namespace CommunicationProtocols.Library.Tokens

variable {Byte : Type*} [DecidableEq Byte] (separator : Byte)

/-- The tokens of a string behind the part of a token that has been read. -/
def scan (current : List Byte) : List Byte → List (List Byte)
  | [] => if current = [] then [] else [current]
  | byte :: rest =>
      if byte = separator then
        if current = [] then scan [] rest else current :: scan [] rest
      else
        scan (current ++ [byte]) rest

/-- The tokens of a string. -/
def tokens (string : List Byte) : List (List Byte) := scan separator [] string

/-- The string after `count` calls: the separator that ends a token has become
the terminator. -/
def terminate (terminator : Byte) : Nat → Bool → List Byte → List Byte
  | 0, _, string => string
  | _, _, [] => []
  | count + 1, inToken, byte :: rest =>
      if byte = separator then
        if inToken then terminator :: terminate terminator count false rest
        else byte :: terminate terminator (count + 1) false rest
      else
        byte :: terminate terminator (count + 1) true rest

variable {separator}

/-- A word without a separator is added to the token that has begun. -/
theorem scan_append (current word rest : List Byte) (whole : separator ∉ word) :
    scan separator current (word ++ rest) = scan separator (current ++ word) rest := by
  induction word generalizing current with
  | nil => simp
  | cons byte word ih =>
      obtain ⟨differs, later⟩ := List.ne_and_not_mem_of_not_mem_cons whole
      simp only [List.cons_append, scan, if_neg differs.symm]
      rw [ih (current ++ [byte]) later, List.append_assoc, List.singleton_append]

/-- A separator in front of a string does not count. -/
@[simp] theorem tokens_separator (rest : List Byte) :
    tokens separator (separator :: rest) = tokens separator rest := by
  simp [tokens, scan]

@[simp] theorem tokens_separators (count : Nat) (rest : List Byte) :
    tokens separator (List.replicate count separator ++ rest) = tokens separator rest := by
  induction count with
  | zero => simp
  | succ count ih => rw [List.replicate_succ, List.cons_append, tokens_separator, ih]

/-- A word in front of a separator is the first token. -/
theorem tokens_word_separator {word : List Byte} (rest : List Byte) (nonempty : word ≠ [])
    (whole : separator ∉ word) :
    tokens separator (word ++ separator :: rest) = word :: tokens separator rest := by
  unfold tokens
  rw [scan_append [] word _ whole, List.nil_append]
  simp [scan, nonempty]

/-- A word is its only token. -/
theorem tokens_word {word : List Byte} (nonempty : word ≠ []) (whole : separator ∉ word) :
    tokens separator word = [word] := by
  have scanned := scan_append [] word [] whole
  rw [List.append_nil, List.nil_append] at scanned
  simp [tokens, scanned, scan, nonempty]

/-- A token stands in the string, up to a separator or the end. -/
theorem exists_of_mem_scan {current string token : List Byte}
    (member : token ∈ scan separator current string) :
    ∃ before after, current ++ string = before ++ token ++ after ∧
      (after = [] ∨ after.head? = some separator) := by
  induction string generalizing current with
  | nil =>
      unfold scan at member
      split at member
      · cases member
      · obtain rfl := List.mem_singleton.mp member
        exact ⟨[], [], by simp, .inl rfl⟩
  | cons byte rest ih =>
      unfold scan at member
      split at member
      case isTrue here =>
        split at member
        case isTrue empty =>
          obtain ⟨before, after, split, stops⟩ := ih member
          refine ⟨byte :: before, after, ?_, stops⟩
          simpa [empty] using split
        case isFalse =>
          rcases List.mem_cons.mp member with rfl | later
          · exact ⟨[], byte :: rest, by simp, .inr (by simp [here])⟩
          · obtain ⟨before, after, split, stops⟩ := ih later
            refine ⟨current ++ byte :: before, after, ?_, stops⟩
            simpa using split
      case isFalse =>
        obtain ⟨before, after, split, stops⟩ := ih member
        exact ⟨before, after, by simpa using split, stops⟩

/-- A token stands in the string, and ends with it or in front of a separator. -/
theorem exists_of_mem_tokens {string token : List Byte} (member : token ∈ tokens separator string) :
    ∃ before after, string = before ++ token ++ after ∧
      (after = [] ∨ after.head? = some separator) :=
  exists_of_mem_scan member

end CommunicationProtocols.Library.Tokens
