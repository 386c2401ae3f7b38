import Brainfuck.Proofs.Parsing
import Brainfuck.Proofs.Upcoming
import Brainfuck.Source.Bytes

/-!
# Encoded text

The bytes of a text in UTF-8 hold the same program as the text, read as one character each. Only the
offsets change: what stands behind `k` characters of the text stands behind the bytes of these.
-/

namespace Brainfuck

open Source

/-- The offset among the bytes of a text that corresponds to an offset among its characters. -/
def byteOffset (text : String) (k : Nat) : Nat := (String.ofList (text.toList.take k)).utf8ByteSize

/-! ## Moving offsets -/

section Move

variable (f : Nat → Nat)

def Span.move (s : Span) : Span := ⟨f s.start, f s.stop⟩

def Token.move (t : Token) : Token := { t with span := t.span.move f }

def ParseError.move : ParseError → ParseError
  | unexpectedToken t => unexpectedToken (t.move f)
  | unterminatedLoop openedAt ended => unterminatedLoop (openedAt.move f) (ended.move f)

def Placed.move (p : Placed) : Placed := ⟨p.symbol, f p.offset⟩

def OpenLoop.move (l : OpenLoop) : OpenLoop := { l with openedAt := l.openedAt.move f }

def Draft.move (d : Draft) : Draft := { d with loops := d.loops.map (OpenLoop.move f) }

variable {f}

/-- The character that the symbol is stays one character wide. -/
def Placed.Keeps (f : Nat → Nat) (p : Placed) : Prop := f (p.offset + 1) = f p.offset + 1

theorem Placed.Keeps.span {p : Placed} (h : p.Keeps f) : (p.move f).span = p.span.move f := by
  rw [Placed.span, Placed.span, Span.move, h]
  rfl

theorem Placed.Keeps.token {p : Placed} (h : p.Keeps f) : (p.move f).token = p.token.move f := by
  rw [Placed.token, h.span]
  rfl

namespace Draft

variable {d next : Draft} {p stray : Placed}

@[simp] theorem block_move : (d.move f).block = d.block := by
  rcases d with ⟨_ | ⟨l, outer⟩, done⟩ <;> rfl

theorem move_withBlock (b : List Statement) : (d.withBlock b).move f = (d.move f).withBlock b := by
  rcases d with ⟨_ | ⟨l, outer⟩, done⟩ <;> rfl

theorem move_push (s : Statement) : (d.push s).move f = (d.move f).push s := by
  rw [push, push, move_withBlock, block_move]

theorem put_eq_error (h : d.put p = .error stray) :
    stray = p ∧ p.symbol = .rightBracket ∧ d.loops = [] := by
  rcases p with ⟨_ | _ | o | _ | _, offset⟩
  · cases h
  · cases h
  · cases h
  · cases h
  · rcases d with ⟨_ | ⟨l, outer⟩, done⟩ <;> cases h
    exact ⟨rfl, rfl, rfl⟩

theorem put_move (hp : p.Keeps f) (h : d.put p = .ok next) :
    (d.move f).put (p.move f) = .ok (next.move f) := by
  have hspan := hp.span
  rcases p with ⟨_ | _ | o | _ | _, offset⟩
  · cases h
    exact congrArg Except.ok (move_push .print).symm
  · cases h
    exact congrArg Except.ok (move_push .input).symm
  · cases h
    rw [move_withBlock, put_operator rfl, block_move]
  · cases h
    rw [put_leftBracket rfl, hspan]
    rfl
  · rcases d with ⟨_ | ⟨l, outer⟩, done⟩
    · cases h
    · cases h
      rw [put_rightBracket rfl rfl, move_push]
      rfl

theorem toProgram_move (d : Draft) (finish : Nat) :
    (d.move f).toProgram (f finish) = (d.toProgram finish).mapError (.move f) := by
  rcases d with ⟨_ | ⟨l, outer⟩, done⟩ <;> rfl

theorem complete_move {ps : List Placed} (hps : ∀ p ∈ ps, p.Keeps f) (d : Draft) (finish : Nat) :
    (d.move f).complete (ps.map (.move f)) (f finish) =
      (d.complete ps finish).mapError (.move f) := by
  induction ps generalizing d with
  | nil => exact toProgram_move d finish
  | cons p ps ih =>
    have hp := hps p List.mem_cons_self
    cases hput : d.put p with
    | ok next =>
      have hone : d.putAll [p] = .ok next := by rw [putAll_cons_of_ok hput, putAll]
      have hmoved : (d.move f).putAll [p.move f] = .ok (next.move f) := by
        rw [putAll_cons_of_ok (put_move hp hput), putAll]
      rw [List.map_cons, ← List.singleton_append, complete_append_of_ok hmoved,
        ← List.singleton_append (l := ps), complete_append_of_ok hone]
      exact ih (fun q hq => hps q (List.mem_cons_of_mem p hq)) next
    | error stray =>
      obtain ⟨rfl, hsymbol, hloops⟩ := put_eq_error hput
      have hstray : (d.move f).put (stray.move f) = .error (stray.move f) :=
        put_stray hsymbol (by rw [move, hloops]; rfl)
      rw [List.map_cons, complete, putAll_cons_of_error hstray, complete,
        putAll_cons_of_error hput]
      exact congrArg (fun t => Except.error (ParseError.unexpectedToken t)) hp.token

end Draft

theorem Placed.tokens_move {ps : List Placed} (hps : ∀ p ∈ ps, p.Keeps f) (finish : Nat) :
    tokens (f finish) (ps.map (move f)) = (tokens finish ps).map (Token.move f) := by
  rw [tokens, tokens, Stream'.map_append_stream, Stream'.map_const, List.map_map, List.map_map]
  congr 1
  exact List.map_congr_left fun p hp => (hps p hp).token

end Move

/-! ## Bytes as characters -/

/-- The bytes of a character, each read as a character of its own. -/
def encodedChar (c : Char) : List Char := (String.utf8EncodeChar c).map Char.ofUInt8

def encoded (text : List Char) : List Char := text.flatMap encodedChar

theorem encoded_append (text more : List Char) :
    encoded (text ++ more) = encoded text ++ encoded more :=
  List.flatMap_append

theorem encoded_cons (c : Char) (text : List Char) :
    encoded (c :: text) = encodedChar c ++ encoded text :=
  List.flatMap_cons

theorem encoded_singleton (c : Char) : encoded [c] = encodedChar c := by
  rw [encoded_cons, encoded, List.flatMap_nil, List.append_nil]

theorem val_ofUInt8 (b : UInt8) : (Char.ofUInt8 b).val.toNat = b.toNat :=
  UInt8.toNat_toUInt32 b

theorem encodedChar_of_ascii {c : Char} (h : c.val.toNat ≤ 127) : encodedChar c = [c] := by
  rw [encodedChar, String.utf8EncodeChar, if_pos h, List.map_singleton]
  refine congrArg (fun d => [d]) (Char.ext (UInt32.toNat_inj.1 ?_))
  rw [val_ofUInt8]
  exact Nat.mod_eq_of_lt (Nat.lt_of_le_of_lt h (by decide))

theorem le_of_mem_utf8EncodeChar {c : Char} (h : 127 < c.val.toNat) :
    ∀ b ∈ String.utf8EncodeChar c, 128 ≤ b.toNat := by
  intro b hb
  simp only [String.utf8EncodeChar, if_neg (Nat.not_le.2 h)] at hb
  split at hb
  · simp only [List.mem_cons, List.not_mem_nil, or_false] at hb
    rcases hb with rfl | rfl <;> simp <;> omega
  split at hb
  · simp only [List.mem_cons, List.not_mem_nil, or_false] at hb
    rcases hb with rfl | rfl | rfl <;> simp <;> omega
  · simp only [List.mem_cons, List.not_mem_nil, or_false] at hb
    rcases hb with rfl | rfl | rfl | rfl <;> simp <;> omega

theorem Symbol.toChar_ascii (s : Symbol) : s.toChar.val.toNat ≤ 127 := by
  rcases s with _ | _ | ⟨_ | _ | _ | _⟩ | _ | _ <;> decide

theorem encodedChar_toChar (s : Symbol) : encodedChar s.toChar = [s.toChar] :=
  encodedChar_of_ascii s.toChar_ascii

theorem ofChar?_of_mem_encodedChar {c : Char} (h : Symbol.ofChar? c = none) :
    ∀ d ∈ encodedChar c, Symbol.ofChar? d = none := by
  intro d hd
  by_cases hc : c.val.toNat ≤ 127
  · rw [encodedChar_of_ascii hc, List.mem_singleton] at hd
    rwa [hd]
  · obtain ⟨b, hb, rfl⟩ := List.mem_map.1 hd
    have hbig := le_of_mem_utf8EncodeChar (Nat.not_le.1 hc) b hb
    cases hs : Symbol.ofChar? (Char.ofUInt8 b) with
    | none => rfl
    | some s =>
      have hsmall := s.toChar_ascii
      rw [← Symbol.ofChar?_eq_some_iff.1 hs, val_ofUInt8] at hsmall
      omega

/-! ## The symbols of the bytes -/

namespace Placed

theorem scan_of_comments {text : List Char} (h : ∀ c ∈ text, Symbol.ofChar? c = none)
    (offset : Nat) : scan offset text = [] := by
  induction text generalizing offset with
  | nil => rfl
  | cons c text ih =>
    rw [scan_cons_of_comment (h c List.mem_cons_self)]
    exact ih (fun d hd => h d (List.mem_cons_of_mem c hd)) (offset + 1)

theorem scan_encoded {f : Nat → Nat} (before text : List Char)
    (hf : ∀ k, f k = (encoded ((before ++ text).take k)).length) :
    scan (encoded before).length (encoded text) = (scan before.length text).map (move f) ∧
      ∀ p ∈ scan before.length text, p.Keeps f := by
  -- Each step moves one character from `text` to `before`, whose bytes `f` counts.
  induction text generalizing before with
  | nil => exact ⟨rfl, by simp [scan]⟩
  | cons c text ih =>
    have hnow : f before.length = (encoded before).length := by rw [hf, List.take_left]
    obtain ⟨hscan, hkeeps⟩ := ih (before ++ [c]) (by rwa [List.append_assoc])
    rw [encoded_append, encoded_singleton, List.length_append, List.length_append,
      List.length_singleton] at hscan
    rw [List.length_append, List.length_singleton] at hkeeps
    cases hs : Symbol.ofChar? c with
    | none =>
      -- None of the bytes of a comment is taken for a symbol.
      rw [encoded_cons, scan_append, scan_of_comments (ofChar?_of_mem_encodedChar hs),
        scan_cons_of_comment hs]
      exact ⟨hscan, hkeeps⟩
    | some s =>
      obtain rfl := Symbol.ofChar?_eq_some_iff.1 hs
      rw [encodedChar_toChar, List.length_singleton] at hscan
      rw [encoded_cons, encodedChar_toChar, List.singleton_append, scan_cons_of_symbol hs,
        scan_cons_of_symbol hs, hscan, List.map_cons, ← hnow]
      refine ⟨rfl, List.forall_mem_cons.2 ⟨?_, hkeeps⟩⟩
      rw [Keeps, hnow, hf, List.append_cons, List.take_left' (by simp), encoded_append,
        encoded_singleton, encodedChar_toChar, List.length_append, List.length_singleton]

end Placed

theorem byteOffset_eq (text : String) (k : Nat) :
    byteOffset text k = (encoded (text.toList.take k)).length := by
  rw [byteOffset, ← String.size_toByteArray, String.toByteArray_ofList, List.utf8Encode,
    List.size_toByteArray, encoded, List.length_flatMap, List.length_flatMap]
  simp [encodedChar]

theorem map_ofUInt8_toUTF8 (text : String) :
    text.toUTF8.data.toList.map Char.ofUInt8 = encoded text.toList := by
  conv_lhs => rw [← String.ofList_toList (s := text)]
  rw [String.toUTF8_eq_toByteArray, String.toByteArray_ofList, List.utf8Encode,
    List.data_toByteArray, List.map_flatMap]
  rfl

/-! ## The program of the bytes -/

/-- The bytes of a text parse as the text does. -/
theorem parse_encoded (text : String) (script : List ReadAnswer)
    (h : delivered script = text.toUTF8.data.toList) :
    (TokenStream.ofSource (ByteSource.ofScript script)).parseProgram.1 =
        (parse text).mapError (.move (byteOffset text)) ∧
      (TokenStream.ofSource (ByteSource.ofScript script)).upcoming =
        (TokenStream.ofSource (TextSource.ofText text)).upcoming.map (.move (byteOffset text)) := by
  have hrest : rest (ByteSource.ofScript script) = encoded text.toList := by
    rw [← map_ofUInt8_toUTF8, ← h]
    rfl
  have hfinish : byteOffset text text.length = (encoded text.toList).length := by
    rw [byteOffset_eq, ← String.length_toList, List.take_length]
  obtain ⟨hscan, hkeeps⟩ := Placed.scan_encoded [] text.toList (byteOffset_eq text)
  have hholds := TokenStream.holds_ofSource (ByteSource.ofScript script)
  rw [hrest, show position (ByteSource.ofScript script) = 0 from rfl, Nat.zero_add, ← hfinish,
    show Placed.scan 0 (encoded text.toList) = _ from hscan] at hholds
  refine ⟨?_, ?_⟩
  · rw [hholds.parseProgram.1, parse_eq_complete]
    exact Draft.complete_move hkeeps Draft.empty text.length
  · rw [hholds.upcoming_eq, (holds_text text).upcoming_eq]
    exact Placed.tokens_move hkeeps text.length

theorem parse_encoded_of_accent_and_bracket :
    delivered [.byte 0xC3, .byte 0xA9, .byte 0x5D] = "é]".toUTF8.data.toList ∧
      (TokenStream.ofSource (ByteSource.ofScript
          [.byte 0xC3, .byte 0xA9, .byte 0x5D])).parseProgram.1 =
        .error (.unexpectedToken ⟨⟨2, 3⟩, .symbol .rightBracket, ']'⟩) := by
  have hbytes : delivered [.byte 0xC3, .byte 0xA9, .byte 0x5D] = "é]".toUTF8.data.toList := by
    decide
  have htext : parse "é]" = .error (.unexpectedToken ⟨⟨1, 2⟩, .symbol .rightBracket, ']'⟩) := by
    rw [parse_eq_complete]
    rfl
  refine ⟨hbytes, (parse_encoded "é]" _ hbytes).1.trans ?_⟩
  rw [htext]
  rfl

end Brainfuck
