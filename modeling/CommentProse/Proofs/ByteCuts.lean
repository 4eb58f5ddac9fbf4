import CommentProse.Text.Bytes
import Mathlib.Tactic.Common

/-!
Where the bytes of a text can be cut.

* `Text.exists_of_bytes_append`: bytes that begin with those of a text are the bytes of a text that
  begins with it, since no character's bytes begin those of another;
* `Text.exists_cut`: a byte that begins a character stands only where one begins, so that bytes cut
  before it are cut between two characters;
* `Text.bytes_suffix_iff`, `Text.exists_ascii_cut`: hence the bytes at the end of a text, or after a
  character of one byte, are those of its last characters.
-/

namespace CommentProse.Text

lemma bytes_cons (c : Char) (cs : List Char) :
    bytes (c :: cs) = String.utf8EncodeChar c ++ bytes cs := by
  rw [← List.singleton_append, bytes_append]
  simp [bytes]

lemma bytes_eq_nil {cs : List Char} (h : bytes cs = []) : cs = [] := by
  cases cs with
  | nil => rfl
  | cons c cs =>
      rw [bytes_cons, List.append_eq_nil_iff] at h
      exact absurd h.1 String.utf8EncodeChar_ne_nil

/-- Bytes tell which character they begin with. -/
lemma eq_of_utf8EncodeChar_append {c d : Char} {as bs : List UInt8}
    (h : String.utf8EncodeChar c ++ as = String.utf8EncodeChar d ++ bs) : c = d := by
  have hdecode := congrArg (fun bytes => bytes.toByteArray.utf8DecodeChar? 0) h
  simpa only [List.toByteArray_append, ByteArray.utf8DecodeChar?_utf8EncodeChar_append,
    Option.some.injEq] using hdecode

/-- Bytes that begin with those of a text are the bytes of a text that begins with it. -/
lemma exists_of_bytes_append {a cs : List Char} {rest : List UInt8}
    (h : bytes cs = bytes a ++ rest) : ∃ b, cs = a ++ b ∧ bytes b = rest := by
  induction a generalizing cs with
  | nil => exact ⟨cs, rfl, h⟩
  | cons c a ih =>
      cases cs with
      | nil =>
          rw [bytes_cons, List.append_assoc] at h
          exact absurd (List.append_eq_nil_iff.mp h.symm).1 String.utf8EncodeChar_ne_nil
      | cons d cs =>
          rw [bytes_cons, bytes_cons, List.append_assoc] at h
          obtain rfl := eq_of_utf8EncodeChar_append h
          obtain ⟨b, rfl, hb⟩ := ih (List.append_cancel_left h)
          exact ⟨b, rfl, hb⟩

lemma isUTF8FirstByte_of_cons {c : Char} {first : UInt8} {more : List UInt8}
    (h : String.utf8EncodeChar c = first :: more) : first.IsUTF8FirstByte := by
  have hpos : 0 < (String.utf8EncodeChar c).length := by
    rw [h, List.length_cons]
    omega
  have hbyte : (String.utf8EncodeChar c)[0] = first := by
    simp only [h, List.getElem_cons_zero]
  rw [← hbyte, UInt8.isUTF8FirstByte_getElem_utf8EncodeChar]

/-- Only the first byte of a character begins one. -/
lemma not_isUTF8FirstByte_of_mem {c : Char} {first b : UInt8} {more : List UInt8}
    (h : String.utf8EncodeChar c = first :: more) (hb : b ∈ more) : ¬ b.IsUTF8FirstByte := by
  obtain ⟨i, hi, rfl⟩ := List.mem_iff_getElem.mp hb
  have hi' : i + 1 < (String.utf8EncodeChar c).length := by
    rw [h, List.length_cons]
    omega
  have hbyte : (String.utf8EncodeChar c)[i + 1] = more[i] := by
    simp only [h, List.getElem_cons_succ]
  rw [← hbyte, UInt8.isUTF8FirstByte_getElem_utf8EncodeChar]
  omega

/-- A byte that begins a character stands only where one begins. -/
lemma exists_cut {cs : List Char} {b : UInt8} {before behind : List UInt8}
    (hb : b.IsUTF8FirstByte) (h : bytes cs = before ++ b :: behind) :
    ∃ a d, cs = a ++ d ∧ bytes a = before ∧ bytes d = b :: behind := by
  induction cs generalizing before with
  | nil => simp at h
  | cons c cs ih =>
      cases before with
      | nil => exact ⟨[], c :: cs, rfl, rfl, h⟩
      | cons x before =>
          obtain ⟨first, more, hc⟩ :=
            List.exists_cons_of_ne_nil (String.utf8EncodeChar_ne_nil : String.utf8EncodeChar c ≠ [])
          rw [bytes_cons, hc, List.cons_append, List.cons_append, List.cons.injEq] at h
          obtain ⟨rfl, h⟩ := h
          -- the byte stands behind the bytes of the first character, or among them
          obtain ⟨between, rfl, hcs⟩ | ⟨left, hleft, hbehind⟩ := List.append_eq_append_iff.mp h
          · obtain ⟨a, d, rfl, rfl, hd⟩ := ih hcs
            exact ⟨c :: a, d, rfl, by rw [bytes_cons, hc, List.cons_append], hd⟩
          · cases left with
            | nil =>
                refine ⟨[c], cs, rfl, ?_, hbehind.symm⟩
                rw [bytes_cons, bytes_nil, hc, hleft, List.append_nil, List.append_nil]
            | cons y left =>
                obtain ⟨rfl, -⟩ := List.cons.inj hbehind
                exact absurd hb (not_isUTF8FirstByte_of_mem hc (by simp [hleft]))

/-- The bytes of a text end with those of another exactly if the text ends with it. -/
lemma bytes_suffix_iff {s cs : List Char} : bytes s <:+ bytes cs ↔ s <:+ cs := by
  constructor
  · rintro ⟨before, h⟩
    cases s with
    | nil => exact List.nil_suffix
    | cons c s =>
        obtain ⟨first, more, hc⟩ :=
          List.exists_cons_of_ne_nil (String.utf8EncodeChar_ne_nil : String.utf8EncodeChar c ≠ [])
        have hbytes : bytes (c :: s) = first :: (more ++ bytes s) := by
          rw [bytes_cons, hc, List.cons_append]
        obtain ⟨a, d, rfl, -, hd⟩ := exists_cut (isUTF8FirstByte_of_cons hc) (hbytes ▸ h.symm)
        obtain ⟨b, rfl, hb⟩ := exists_of_bytes_append
          (show bytes d = bytes (c :: s) ++ [] by rw [hd, hbytes, List.append_nil])
        rw [bytes_eq_nil hb, List.append_nil]
        exact List.suffix_append a (c :: s)
  · rintro ⟨a, rfl⟩
    exact ⟨bytes a, (bytes_append a s).symm⟩

/-- Bytes cut behind a character of one byte are cut between two characters. -/
lemma exists_ascii_cut {c : Char} {b : UInt8} (hc : String.utf8EncodeChar c = [b])
    {cs : List Char} {before behind : List UInt8} (h : bytes cs = before ++ b :: behind) :
    ∃ a d, cs = a ++ c :: d ∧ bytes a = before ∧ bytes d = behind := by
  obtain ⟨a, d, rfl, ha, hd⟩ := exists_cut (isUTF8FirstByte_of_cons hc) h
  obtain ⟨e, rfl, he⟩ := exists_of_bytes_append
    (show bytes d = bytes [c] ++ behind by rw [hd, bytes_cons, hc]; rfl)
  exact ⟨a, e, rfl, ha, he⟩

end CommentProse.Text
