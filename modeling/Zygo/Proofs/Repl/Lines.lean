import Zygo.Proofs.Listing.Text
import Zygo.Repl

/-!
# Lines of bytes and lines of text

The loop takes bytes apart at newlines, drops a carriage return before a newline, and puts a newline behind each line.
For the bytes of a text, these are the lines of the text itself once each carriage return before a newline is left out
and the last line is ended (`normalize`), since no character but the newline has the byte of one in its encoding.

* `feedLines_encode`: on the bytes of a text the loop is `converse`, which feeds the lines of the normal text.
-/

namespace Zygo.Repl

variable {v w s : List Char} {c d : Char}

/-! ## Bytes of characters -/

/-- The bytes of characters. -/
def encode (s : List Char) : List UInt8 :=
  s.flatMap String.utf8EncodeChar

/-- The bytes of a text. -/
def bytes (text : String) : List UInt8 :=
  text.toUTF8.data.toList

theorem bytes_eq (text : String) : bytes text = encode text.toList := by
  rw [bytes, String.toUTF8_eq_toByteArray, ← String.utf8Encode_toList, List.utf8Encode, List.toList_data_toByteArray,
    encode]

theorem encode_append (s t : List Char) : encode (s ++ t) = encode s ++ encode t :=
  List.flatMap_append

theorem decode?_encode (s : List Char) : decode? (encode s) = some (String.ofList s) := by
  have hb : (⟨(encode s).toArray⟩ : ByteArray) = s.utf8Encode := by
    rw [List.utf8Encode, ByteArray.ext_iff, List.data_toByteArray, encode]
  rw [decode?, hb, String.fromUTF8?, dif_pos ByteArray.isValidUTF8_utf8Encode]
  rfl

/-- A character is its own byte, or its bytes are all beyond those of such characters. -/
theorem utf8EncodeChar_cases (c : Char) :
    (c.toNat ≤ 127 ∧ String.utf8EncodeChar c = [UInt8.ofNat c.toNat]) ∨
      (127 < c.toNat ∧ ∀ b ∈ String.utf8EncodeChar c, 127 < b.toNat) := by
  rcases Nat.lt_or_ge 127 c.toNat with h | h
  · right
    have hv : ¬c.val.toNat ≤ 127 := Nat.not_le.2 h
    refine ⟨h, fun b hb => ?_⟩
    unfold String.utf8EncodeChar at hb
    simp only [hv, if_false] at hb
    split at hb
    · simp only [List.mem_cons, List.not_mem_nil, or_false] at hb
      rcases hb with rfl | rfl <;> simp only [UInt8.toNat_ofNat'] <;> omega
    · split at hb
      · simp only [List.mem_cons, List.not_mem_nil, or_false] at hb
        rcases hb with rfl | rfl | rfl <;> simp only [UInt8.toNat_ofNat'] <;> omega
      · simp only [List.mem_cons, List.not_mem_nil, or_false] at hb
        rcases hb with rfl | rfl | rfl | rfl <;> simp only [UInt8.toNat_ofNat'] <;> omega
  · left
    have hv : c.val.toNat ≤ 127 := h
    refine ⟨h, ?_⟩
    unfold String.utf8EncodeChar
    simp only [hv, if_true]
    rfl

/-- The byte of a character below 128 is in the encoding of no other. -/
theorem mem_utf8EncodeChar (hd : d.toNat ≤ 127) (h : UInt8.ofNat d.toNat ∈ String.utf8EncodeChar c) : c = d := by
  have hbyte : (UInt8.ofNat d.toNat).toNat = d.toNat := by
    rw [UInt8.toNat_ofNat']
    omega
  rcases utf8EncodeChar_cases c with ⟨hc, he⟩ | ⟨-, he⟩
  · rw [he, List.mem_singleton] at h
    have hn : d.toNat = c.toNat := by
      have hc' : (UInt8.ofNat c.toNat).toNat = c.toNat := by
        rw [UInt8.toNat_ofNat']
        omega
      rw [← hbyte, h, hc']
    exact (Char.toNat_inj.1 hn).symm
  · have := he _ h
    omega

theorem newline_mem_encode : (10 : UInt8) ∈ encode s ↔ '\n' ∈ s := by
  constructor
  · intro h
    obtain ⟨c, hc, hb⟩ := List.mem_flatMap.1 h
    have hn : c = '\n' := mem_utf8EncodeChar (d := '\n') (by decide) hb
    exact hn ▸ hc
  · intro h
    exact List.mem_flatMap.2 ⟨'\n', h, by decide⟩

/-! ## Lines of bytes -/

theorem splitBytes_last {bs : List UInt8} (hne : bs ≠ []) (hn : 10 ∉ bs) : splitBytes bs = [(bs, false)] := by
  induction bs with
  | nil => exact absurd rfl hne
  | cons b bs ih =>
    have hb : b ≠ 10 := fun h => hn (h ▸ List.mem_cons_self)
    have hbs : 10 ∉ bs := fun h => hn (List.mem_cons_of_mem _ h)
    rw [splitBytes, if_neg hb]
    cases bs with
    | nil => rfl
    | cons b' bs => rw [ih (by simp) hbs]

theorem splitBytes_line {bs rest : List UInt8} (hn : 10 ∉ bs) :
    splitBytes (bs ++ 10 :: rest) = (bs, true) :: splitBytes rest := by
  induction bs with
  | nil => rw [List.nil_append, splitBytes, if_pos rfl]
  | cons b bs ih =>
    have hb : b ≠ 10 := fun h => hn (h ▸ List.mem_cons_self)
    have hbs : 10 ∉ bs := fun h => hn (List.mem_cons_of_mem _ h)
    rw [List.cons_append, splitBytes, if_neg hb, ih hbs]

/-! ## Lines of text -/

/-- A line without the carriage return at its end. -/
def chomp (w : List Char) : List Char :=
  if w.getLast? = some '\r' then w.dropLast else w

/-- A text without the carriage returns that stand before newlines. -/
def dropReturns : List Char → List Char
  | [] => []
  | '\r' :: '\n' :: s => '\n' :: dropReturns s
  | c :: s => c :: dropReturns s

/-- A text with a newline behind its last line, if that has none. -/
def terminate (s : List Char) : List Char :=
  if s = [] ∨ s.getLast? = some '\n' then s else s ++ ['\n']

/-- A text with plain newlines, of which the last ends it. -/
def normalize (text : String) : String :=
  String.ofList (terminate (dropReturns text.toList))

/-- The lines of the normal text. -/
def normalLines (s : List Char) : List String :=
  (Listing.splitLines (terminate (dropReturns s))).map String.ofList

/-- The bytes of a line lose the byte of a carriage return just when the line loses one. -/
theorem dropReturn_encode (w : List Char) : dropReturn (encode w) true = encode (chomp w) := by
  rcases List.eq_nil_or_concat w with rfl | ⟨v, c, rfl⟩
  · rfl
  · have he : encode (v.concat c) = encode v ++ String.utf8EncodeChar c := by
      rw [List.concat_eq_append, encode_append]
      simp [encode]
    have hne : String.utf8EncodeChar c ≠ [] := String.utf8EncodeChar_ne_nil
    have hlast : (encode v ++ String.utf8EncodeChar c).getLast? = (String.utf8EncodeChar c).getLast? := by
      rw [List.getLast?_append, List.getLast?_eq_some_getLast hne, Option.some_or]
    rw [dropReturn, chomp, he, hlast, List.concat_eq_append]
    by_cases hc : c = '\r'
    · subst hc
      have hr : String.utf8EncodeChar '\r' = [13] := by decide
      simp [hr]
    · have hr : (String.utf8EncodeChar c).getLast? ≠ some 13 := by
        intro h
        exact hc (mem_utf8EncodeChar (d := '\r') (by decide) (List.mem_of_getLast? h))
      simp [hr, hc, encode]

theorem dropReturns_word (hw : '\n' ∉ w) : dropReturns w = w := by
  fun_induction dropReturns w with
  | case1 => rfl
  | case2 s ih => simp at hw
  | case3 c s _ ih => rw [ih fun h => hw (List.mem_cons_of_mem _ h)]

theorem dropReturns_line (hw : '\n' ∉ w) (s : List Char) :
    dropReturns (w ++ '\n' :: s) = chomp w ++ '\n' :: dropReturns s := by
  induction w with
  | nil => rw [List.nil_append, dropReturns] <;> simp [chomp]
  | cons c w ih =>
    have hw' : '\n' ∉ w := fun h => hw (List.mem_cons_of_mem _ h)
    cases w with
    | nil =>
      by_cases hc : c = '\r'
      · subst hc
        rfl
      · rw [List.singleton_append, dropReturns, dropReturns] <;> simp [chomp, hc]
    | cons d w =>
      have hd : d ≠ '\n' := fun h => hw' (h ▸ List.mem_cons_self)
      have hchomp : chomp (c :: d :: w) = c :: chomp (d :: w) := by
        simp only [chomp, List.getLast?_cons_cons, List.dropLast_cons_cons]
        split <;> rfl
      rw [List.cons_append, List.cons_append, dropReturns, ← List.cons_append, ih hw', hchomp, List.cons_append]
      intro s' _ h
      exact hd (List.cons.inj h).1

theorem splitLines_line (hw : '\n' ∉ w) (s : List Char) :
    Listing.splitLines (w ++ '\n' :: s) = (w ++ ['\n']) :: Listing.splitLines s := by
  induction w with
  | nil => rw [List.nil_append, Listing.splitLines, if_pos rfl]; rfl
  | cons c w ih =>
    have hc : c ≠ '\n' := fun h => hw (h ▸ List.mem_cons_self)
    have hw' : '\n' ∉ w := fun h => hw (List.mem_cons_of_mem _ h)
    rw [List.cons_append, Listing.splitLines, if_neg hc, ih hw']
    rfl

theorem terminate_line (w s : List Char) : terminate (w ++ '\n' :: s) = w ++ '\n' :: terminate s := by
  unfold terminate
  cases s with
  | nil => simp
  | cons c s =>
    have hlast : (w ++ '\n' :: c :: s).getLast? = (c :: s).getLast? := by
      rw [List.getLast?_append, List.getLast?_cons_cons, List.getLast?_eq_some_getLast (by simp), Option.some_or]
    rw [hlast]
    by_cases h : (c :: s).getLast? = some '\n' <;> simp [h]

theorem chomp_subset (h : c ∈ chomp w) : c ∈ w := by
  unfold chomp at h
  split at h
  · exact (List.dropLast_sublist w).mem h
  · exact h

theorem ofList_newline (w : List Char) : String.ofList (w ++ ['\n']) = (String.ofList w).push '\n' := by
  rw [← String.toList_inj]
  simp

theorem normalLines_last (hne : w ≠ []) (hw : '\n' ∉ w) : normalLines w = [(String.ofList w).push '\n'] := by
  have hlast : w.getLast? ≠ some '\n' := fun h => hw (List.mem_of_getLast? h)
  have ht : terminate w = w ++ '\n' :: [] := by simp [terminate, hne, hlast]
  rw [normalLines, dropReturns_word hw, ht, splitLines_line hw, List.map_cons, ofList_newline]
  rfl

theorem normalLines_line (hw : '\n' ∉ w) (s : List Char) :
    normalLines (w ++ '\n' :: s) = (String.ofList (chomp w)).push '\n' :: normalLines s := by
  have hchomp : '\n' ∉ chomp w := fun h => hw (chomp_subset h)
  rw [normalLines, dropReturns_line hw, terminate_line, splitLines_line hchomp, List.map_cons, ofList_newline]
  rfl

/-- A text is empty, a last line that no newline ends, or a line before a text. -/
theorem line_induction {P : List Char → Prop} (nil : P []) (last : ∀ w, w ≠ [] → '\n' ∉ w → P w)
    (line : ∀ w s, '\n' ∉ w → P s → P (w ++ '\n' :: s)) (s : List Char) : P s := by
  suffices h : ∀ v, '\n' ∉ v → P (v ++ s) by simpa using h [] (by simp)
  induction s with
  | nil =>
    intro v hv
    rw [List.append_nil]
    rcases List.eq_nil_or_concat v with rfl | ⟨u, c, rfl⟩
    · exact nil
    · exact last _ (by simp) hv
  | cons c s ih =>
    intro v hv
    by_cases hc : c = '\n'
    · subst hc
      exact line v s hv (by simpa using ih [] (by simp))
    · rw [List.append_cons]
      refine ih _ ?_
      simp [hv, Ne.symm hc]

theorem encode_ne_nil (hne : w ≠ []) : encode w ≠ [] := by
  obtain ⟨c, v, rfl⟩ := List.exists_cons_of_ne_nil hne
  simp [encode, String.utf8EncodeChar_ne_nil]

theorem encode_line (w s : List Char) : encode (w ++ '\n' :: s) = encode w ++ 10 :: encode s := by
  rw [encode_append]
  rfl

/-- There are as many lines of bytes as of text. -/
theorem length_splitBytes (s : List Char) : (splitBytes (encode s)).length = (normalLines s).length := by
  induction s using line_induction with
  | nil => rfl
  | last w hne hw =>
    rw [splitBytes_last (encode_ne_nil hne) (fun h => hw (newline_mem_encode.1 h)), normalLines_last hne hw]
    rfl
  | line w s hw ih =>
    rw [encode_line, splitBytes_line (fun h => hw (newline_mem_encode.1 h)), normalLines_line hw, List.length_cons,
      List.length_cons, ih]

/-! ## The loop -/

/-- What the loop makes of what the listing gives. -/
def lexical : Except (Stuck Listing) Listing → Except (InputError × Listing) Listing
  | .ok l => .ok l
  | .error stuck => .error (.lexical stuck.error, stuck.state)

/-- The loop over lines that are texts: a prompt before each line, and one before the end of the input. -/
def converse (quiet : Bool) (l : Listing) : List String → Except (Stuck Listing) Listing
  | [] => (prompt quiet l).finish
  | line :: rest =>
    match (prompt quiet l).feed line with
    | .error stuck => .error stuck
    | .ok l => converse quiet l rest

theorem feedLine_encode (l : Listing) {line : List UInt8} {ended : Bool} (h : dropReturn line ended = encode w) :
    feedLine l (line, ended) = lexical (l.feed ((String.ofList w).push '\n')) := by
  rw [feedLine, h, decode?_encode]
  simp only
  cases l.feed ((String.ofList w).push '\n') <;> rfl

theorem feedLines_cons (quiet : Bool) (l : Listing) {line : List UInt8} {ended : Bool}
    (h : dropReturn line ended = encode w) (rest : List (List UInt8 × Bool)) (lines : List String)
    (ih : ∀ l, feedLines quiet l rest = lexical (converse quiet l lines)) :
    feedLines quiet l ((line, ended) :: rest) =
      lexical (converse quiet l ((String.ofList w).push '\n' :: lines)) := by
  rw [feedLines, feedLine_encode _ h, converse]
  cases (prompt quiet l).feed ((String.ofList w).push '\n') with
  | error stuck => rfl
  | ok m => exact ih m

/-- **On the bytes of a text the loop feeds the lines of the normal text.** -/
theorem feedLines_encode (quiet : Bool) (l : Listing) (s : List Char) :
    feedLines quiet l (splitBytes (encode s)) = lexical (converse quiet l (normalLines s)) := by
  have hnil : ∀ l, feedLines quiet l [] = lexical (converse quiet l []) := by
    intro l
    rw [feedLines, close, converse]
    cases (prompt quiet l).finish <;> rfl
  induction s using line_induction generalizing l with
  | nil => exact hnil l
  | last w hne hw =>
    have hnl : (10 : UInt8) ∉ encode w := fun h => hw (newline_mem_encode.1 h)
    have hkept : dropReturn (encode w) false = encode w := by simp [dropReturn]
    rw [splitBytes_last (encode_ne_nil hne) hnl, normalLines_last hne hw]
    exact feedLines_cons quiet l hkept [] [] hnil
  | line w s hw ih =>
    have hnl : (10 : UInt8) ∉ encode w := fun h => hw (newline_mem_encode.1 h)
    rw [encode_line, splitBytes_line hnl, normalLines_line hw]
    exact feedLines_cons quiet l (dropReturn_encode w) _ _ ih

end Zygo.Repl
