import CommandOntology.Export.Statements
import CommandOntology.Proofs.Characters

set_option autoImplicit false

namespace CommandOntology

namespace Iri

theorem isUnreserved_lt (c : Char) (h : isUnreserved c = true) : c.toNat < 128 := by
  simp only [isUnreserved, Bool.or_eq_true, beq_iff_eq] at h
  obtain (((h | rfl) | rfl) | rfl) | rfl := h
  · exact Text.isAsciiAlphanumeric_lt c h
  all_goals decide

def segmentByte (byte : UInt8) : List Char :=
  if isUnreserved (Char.ofNat byte.toNat) then [Char.ofNat byte.toNat] else percentByte byte

theorem isUnreserved_capitalHexDigit (n : Nat) (h : n < 16) :
    isUnreserved (capitalHexDigit n) = true := by
  have hall : ∀ m < 16, isUnreserved (capitalHexDigit m) = true := by decide
  exact hall n h

theorem hexValue_capitalHexDigit (n : Nat) (h : n < 16) :
    Text.hexValue (capitalHexDigit n) = n := by
  have hall : ∀ m < 16, Text.hexValue (capitalHexDigit m) = m := by decide
  exact hall n h

theorem toNat_utf8EncodeChar_of_le (c : Char) (h : 128 ≤ c.toNat) :
    ∀ byte ∈ String.utf8EncodeChar c, 128 ≤ byte.toNat := by
  have hv : 128 ≤ c.val.toNat := h
  have hmax : c.val.toNat < 1114112 := by
    have := c.valid
    simp only [UInt32.isValidChar, Nat.isValidChar] at this
    omega
  intro byte hb
  simp only [String.utf8EncodeChar] at hb
  split at hb
  · omega
  split at hb
  · simp only [List.mem_cons, List.not_mem_nil, or_false] at hb
    obtain rfl | rfl := hb <;> rw [UInt8.toNat_ofNat_of_lt' (by change _ < 256; omega)] <;> omega
  split at hb
  · simp only [List.mem_cons, List.not_mem_nil, or_false] at hb
    obtain rfl | rfl | rfl := hb <;> rw [UInt8.toNat_ofNat_of_lt' (by change _ < 256; omega)] <;> omega
  · simp only [List.mem_cons, List.not_mem_nil, or_false] at hb
    obtain rfl | rfl | rfl | rfl := hb <;>
      rw [UInt8.toNat_ofNat_of_lt' (by change _ < 256; omega)] <;> omega

theorem utf8EncodeChar_of_lt (c : Char) (h : c.toNat < 128) :
    String.utf8EncodeChar c = [UInt8.ofNat c.toNat] := by
  rw [String.utf8EncodeChar]
  exact if_pos (by change c.toNat ≤ 127; omega)

theorem ofNat_toNat_ofNat (c : Char) (h : c.toNat < 128) :
    Char.ofNat (UInt8.ofNat c.toNat).toNat = c := by
  rw [UInt8.toNat_ofNat_of_lt' (by change c.toNat < 256; omega), Char.ofNat_toNat]

theorem encodeChar_eq (c : Char) :
    encodeChar c = (String.utf8EncodeChar c).flatMap segmentByte := by
  by_cases h : isUnreserved c = true
  · have hlt := isUnreserved_lt c h
    rw [encodeChar, if_pos h, utf8EncodeChar_of_lt c hlt, List.flatMap_singleton, segmentByte,
      ofNat_toNat_ofNat c hlt, if_pos h]
  · have hbytes : ∀ byte ∈ String.utf8EncodeChar c, percentByte byte = segmentByte byte := by
      intro byte hb
      rw [segmentByte, if_neg]
      intro hu
      have hlt := isUnreserved_lt _ hu
      by_cases hc : c.toNat < 128
      · rw [utf8EncodeChar_of_lt c hc, List.mem_singleton] at hb
        rw [hb, ofNat_toNat_ofNat c hc] at hu
        exact h hu
      · have hge := toNat_utf8EncodeChar_of_le c (by omega) byte hb
        have hsize := byte.toNat_lt
        have hvalid : byte.toNat.isValidChar := Or.inl (by omega)
        have htoNat : (Char.ofNat byte.toNat).toNat = byte.toNat := by
          rw [Char.ofNat, dif_pos hvalid]
          rfl
        omega
    rw [encodeChar, if_neg h, List.flatMap_def, List.flatMap_def, List.map_congr_left hbytes]

theorem encodeChars_eq (text : List Char) :
    encodeChars text = (text.flatMap String.utf8EncodeChar).flatMap segmentByte := by
  rw [encodeChars, List.flatMap_assoc, funext encodeChar_eq]

/-- What a byte is written as tells the byte and where it ends. -/
theorem segmentByte_append_inj (a b : UInt8) (x y : List Char)
    (h : segmentByte a ++ x = segmentByte b ++ y) : a = b ∧ x = y := by
  have hofNat (n : UInt8) (hu : isUnreserved (Char.ofNat n.toNat) = true) :
      (Char.ofNat n.toNat).toNat = n.toNat := by
    have hvalid : n.toNat.isValidChar := Or.inl (by have := n.toNat_lt; omega)
    rw [Char.ofNat, dif_pos hvalid]
    rfl
  have hpercent : isUnreserved '%' = false := by decide
  unfold segmentByte percentByte at h
  split at h <;> split at h
  next ha hb =>
    obtain ⟨hc, rfl⟩ := List.cons_eq_cons.1 h
    refine ⟨UInt8.toNat_inj.1 ?_, rfl⟩
    rw [← hofNat a ha, ← hofNat b hb, hc]
  next ha hb =>
    have hc := (List.cons_eq_cons.1 h).1
    rw [hc, hpercent] at ha
    cases ha
  next ha hb =>
    have hc := (List.cons_eq_cons.1 h).1
    rw [← hc, hpercent] at hb
    cases hb
  next ha hb =>
    simp only [List.cons_append, List.nil_append, List.cons.injEq, true_and] at h
    obtain ⟨hhigh, hlow, rfl⟩ := h
    have hh := congrArg Text.hexValue hhigh
    have hl := congrArg Text.hexValue hlow
    have ha := a.toNat_lt
    have hb := b.toNat_lt
    rw [hexValue_capitalHexDigit _ (by omega), hexValue_capitalHexDigit _ (by omega)] at hh hl
    exact ⟨UInt8.toNat_inj.1 (by omega), rfl⟩

theorem flatMap_segmentByte_inj (a b : List UInt8)
    (h : a.flatMap segmentByte = b.flatMap segmentByte) : a = b := by
  have hne (n : UInt8) (x : List Char) : segmentByte n ++ x ≠ [] := by
    unfold segmentByte percentByte
    split <;> simp
  induction a generalizing b with
  | nil =>
    cases b with
    | nil => rfl
    | cons y b => exact absurd h.symm (hne y _)
  | cons x a ih =>
    cases b with
    | nil => exact absurd h (hne x _)
    | cons y b =>
      obtain ⟨rfl, hrest⟩ := segmentByte_append_inj x y _ _ h
      rw [ih b hrest]

theorem encode_inj (a b : String) (h : encode a = encode b) : a = b := by
  have hchars : encodeChars a.toList = encodeChars b.toList := by
    simpa [encode] using congrArg String.toList h
  rw [encodeChars_eq, encodeChars_eq] at hchars
  have hbytes := congrArg List.toByteArray (flatMap_segmentByte_inj _ _ hchars)
  have hdecode : a.toList.utf8Encode.utf8Decode? = b.toList.utf8Encode.utf8Decode? :=
    congrArg ByteArray.utf8Decode? hbytes
  rw [List.utf8Decode?_utf8Encode, List.utf8Decode?_utf8Encode, Option.some.injEq] at hdecode
  exact String.toList_inj.1 (by simpa using congrArg Array.toList hdecode)

theorem encode_inj_iff (a b : String) : encode a = encode b ↔ a = b :=
  ⟨encode_inj a b, fun h => h ▸ rfl⟩

theorem isUnreserved_of_mem_encodeChars (text : List Char) (c : Char) (h : c ∈ encodeChars text) :
    isUnreserved c = true ∨ c = '%' := by
  rw [encodeChars_eq, List.mem_flatMap] at h
  obtain ⟨byte, -, hc⟩ := h
  have hlt := byte.toNat_lt
  unfold segmentByte percentByte at hc
  split at hc
  next hu =>
    rw [List.mem_singleton] at hc
    exact .inl (hc ▸ hu)
  next =>
    simp only [List.mem_cons, List.not_mem_nil, or_false] at hc
    obtain rfl | rfl | rfl := hc
    · exact .inr rfl
    · exact .inl (isUnreserved_capitalHexDigit _ (by omega))
    · exact .inl (isUnreserved_capitalHexDigit _ (by omega))

theorem slash_not_mem_encode (text : String) : '/' ∉ (encode text).toList := by
  intro h
  rw [encode, String.toList_ofList] at h
  obtain hu | he := isUnreserved_of_mem_encodeChars _ _ h
  · exact absurd hu (by decide)
  · exact absurd he (by decide)

end Iri

namespace Export

inductive Resource
  | noun (name : String)
  | verb (name : String)
  | command (key : CommandKey)
  | argument (key : CommandKey) (name : String)
  deriving DecidableEq

def Resource.segments : Resource → List String
  | noun name => ["noun", Iri.encode name]
  | verb name => ["verb", Iri.encode name]
  | command key => ["command", Iri.encode key.noun, Iri.encode key.verb]
  | argument key name =>
    ["command", Iri.encode key.noun, Iri.encode key.verb, Iri.encode name]

def Resource.node (base : String) (r : Resource) : Term :=
  .iri (base ++ "/".intercalate r.segments)

theorem Resource.node_noun (base noun : String) :
    (Resource.noun noun).node base = nounIri base noun := by
  simp [node, segments, nounIri, String.append_assoc]

theorem Resource.node_verb (base verb : String) :
    (Resource.verb verb).node base = verbIri base verb := by
  simp [node, segments, verbIri, String.append_assoc]

theorem Resource.node_command (base : String) (key : CommandKey) :
    (Resource.command key).node base = .iri (commandIri base key) := by
  simp [node, segments, commandIri, String.append_assoc]

theorem Resource.node_argument (base : String) (key : CommandKey) (name : String) :
    (Resource.argument key name).node base = .iri (commandIri base key ++ "/" ++ Iri.encode name) := by
  simp [node, segments, commandIri, String.append_assoc]

theorem Resource.slash_not_mem_segments (r : Resource) : ∀ x ∈ r.segments, '/' ∉ x.toList := by
  cases r <;> simp [segments, Iri.slash_not_mem_encode]

theorem Resource.segments_inj (r r' : Resource) (h : r.segments = r'.segments) : r = r' := by
  have hkey (a b : CommandKey) (hn : a.noun = b.noun) (hv : a.verb = b.verb) : a = b := by
    cases a
    cases b
    simp_all
  cases r with
  | noun name => cases r' <;> simp_all [segments, Iri.encode_inj_iff]
  | verb name => cases r' <;> simp_all [segments, Iri.encode_inj_iff]
  | command key =>
    cases r' with
    | command key' =>
      simp only [segments, List.cons.injEq, Iri.encode_inj_iff, and_true, true_and] at h
      rw [hkey key key' h.1 h.2]
    | _ => simp [segments] at h
  | argument key name =>
    cases r' with
    | argument key' name' =>
      simp only [segments, List.cons.injEq, Iri.encode_inj_iff, and_true, true_and] at h
      rw [hkey key key' h.1 h.2.1, h.2.2]
    | _ => simp [segments] at h

/-- Different resources have different nodes. -/
theorem Resource.node_inj (base : String) (r r' : Resource) (h : r.node base = r'.node base) :
    r = r' := by
  have hne (r : Resource) : r.segments.map String.toList ≠ [] := by
    cases r <;> simp [segments]
  have hslash (r : Resource) : ∀ x ∈ r.segments.map String.toList, '/' ∉ x := by
    simpa using r.slash_not_mem_segments
  simp only [node, Term.iri.injEq, String.append_right_inj] at h
  have hpath := congrArg String.toList h
  rw [String.toList_intercalate, String.toList_intercalate] at hpath
  have hsplit := congrArg (List.splitOn '/') hpath
  rw [show "/".toList = ['/'] from rfl, List.splitOn_intercalate '/' (hslash r) (hne r),
    List.splitOn_intercalate '/' (hslash r') (hne r')] at hsplit
  exact segments_inj r r' ((List.map_inj_right fun _ _ => String.toList_inj.1).1 hsplit)

end Export

end CommandOntology
