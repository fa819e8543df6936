import Zygo.Proofs.Value.Literals

/-!
# Characters read back from their literals

A character is displayed as `#` and its spelling, which is one atom unless the character ends atoms and has no escape that
keeps it from doing so. There are sixteen of those (`Value.unwritable`), the quote among them: it is spelled with a
backslash, but ends the atom behind the backslash all the same. Their literals are refused.

* `Value.lex_char`: what the literal of a character is lexed to, for every character.
-/

namespace Zygo.Value

variable {c : Char}

/-- Why the literal of an unwritable character is refused: the character is a mark, which may not follow an atom, or it
leaves an atom of the `#` alone. -/
def refusal (c : Char) : LexError.Cause :=
  match Grammar.mark? c with
  | some mark => .unexpected mark
  | none => .unrecognizedAtom "#"

/-- An unwritable character ends the atom of its own literal. -/
theorem lex_unwritable (hc : c ∈ unwritable) :
    lex ("#" ++ String.ofList (Escape.spell c)) = .error ⟨refusal c, 1⟩ := by
  simp only [unwritable, List.mem_cons, List.not_mem_nil, or_false] at hc
  rcases hc with rfl | rfl | rfl | rfl | rfl | rfl | rfl | rfl | rfl | rfl | rfl | rfl | rfl | rfl | rfl | rfl <;>
    rfl

/-- **The literal of a character is one token, unless the character is unwritable.** The token is a character literal with
the character as its text, whose value is the character again. Of an unwritable character there is no token. -/
theorem lex_char (c : Char) (store : Store) :
    lex (store.display (.char c)) =
        (if c ∈ unwritable then .error ⟨refusal c, 1⟩ else .ok [⟨.char, c.toString⟩]) ∧
      ∀ table, Token.value? ⟨.char, c.toString⟩ table = .ok (some (.char c), table) := by
  refine ⟨?_, fun table => ?_⟩
  · split
    · rename_i hc
      rw [display_of_spell? rfl]
      exact lex_unwritable hc
    · rename_i hc
      have hleaf : Leaf (.char c) := .char hc
      rw [display_of_spell? hleaf.spell?]
      exact hleaf.readable.lex_spelling
  · simp [Token.value?, Token.constant?, Except.map]

/-- Not every character reads back: the quote has no token, in spite of its escape. -/
theorem not_lex_char_all :
    ¬∀ c, ∃ t, lex (Store.display {} (.char c)) = .ok [t] ∧ t.kind = .char ∧ t.text = c.toString := by
  intro h
  obtain ⟨t, ht, -⟩ := h '"'
  rw [display_of_spell? rfl] at ht
  cases (lex_unwritable (by decide)).symm.trans ht

end Zygo.Value
