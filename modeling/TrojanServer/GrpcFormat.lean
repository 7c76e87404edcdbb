import TrojanServer.GrpcIndexing

namespace TrojanServer.GrpcIndexing

open TrojanServer.AsyncIo
open TrojanServer.GrpcCodec

def StartsWithFrame (buf payload : List UInt8) (n : Nat) : Prop :=
  n ≤ buf.length ∧ IsFrame (buf.take n) payload

/-- The header, or what the header declares, has not arrived in full. -/
def Incomplete (buf : List UInt8) : Prop :=
  buf.length < 5 ∨
    buf.head? = some 0 ∧ ∃ len, declaredFrameLen buf = some len ∧ buf.length < 5 + len

def multiHunkBody (hunks : List (List UInt8)) : List UInt8 :=
  hunks.flatMap fun hunk => 0x0A :: (encodeVarint (UInt64.ofNat hunk.length) ++ hunk)

def multiHunkFrame (hunks : List (List UInt8)) : List UInt8 :=
  0x00 :: (toBeBytes32 (UInt32.ofNat (multiHunkBody hunks).length) ++ multiHunkBody hunks)

theorem startsWithFrame_iff {buf payload : List UInt8} {n : Nat} :
    StartsWithFrame buf payload n ↔
      GrpcCodec.parseGrpcMessageZerocopy buf = (.ok (some (payload, n)), buf.drop n) := by
  rw [parse_eq_some_iff]
  constructor
  · rintro ⟨hn, hframe⟩
    exact ⟨buf.take n, hframe, by simpa using hn, (List.take_append_drop n buf).symm⟩
  · rintro ⟨frame, hframe, rfl, hbuf⟩
    rw [StartsWithFrame, hbuf, List.take_left]
    exact ⟨by simp, hframe⟩

theorem fields_multiHunkBody {hunks : List (List UInt8)}
    (h : (multiHunkBody hunks).length < 2 ^ 64) : Fields (multiHunkBody hunks) hunks := by
  induction hunks with
  | nil => exact .nil
  | cons hunk hunks ih =>
      simp only [multiHunkBody, List.flatMap_cons, List.cons_append, List.append_assoc,
        List.length_cons, List.length_append] at h ih ⊢
      have hvarint := decodeVarint_encodeVarint_append (UInt64.ofNat hunk.length) []
      rw [List.append_nil] at hvarint
      refine .cons ⟨_, hvarint, ?_⟩ (ih (by omega))
      rw [UInt64.toNat_ofNat']
      omega

theorem isFrame_multiHunkFrame {hunks : List (List UInt8)}
    (h : (multiHunkBody hunks).length < 2 ^ 32) : IsFrame (multiHunkFrame hunks) hunks.flatten :=
  ⟨_, hunks, fields_multiHunkBody (by omega), h, rfl, rfl⟩

/-- The three verdicts of the parser, and what it leaves in the buffer. -/
structure Parsed (buf : List UInt8) (verdict : Except IoError (Option (List UInt8 × Nat)))
    (rest : List UInt8) : Prop where
  accepted : ∀ payload n, verdict = .ok (some (payload, n)) ↔ StartsWithFrame buf payload n
  waiting : verdict = .ok none ↔ Incomplete buf
  rejected : (∃ e, verdict = .error e) ↔
    ¬ Incomplete buf ∧ ∀ payload n, ¬ StartsWithFrame buf payload n
  removed : ∀ payload n, verdict = .ok (some (payload, n)) → rest = buf.drop n
  unchanged : (verdict = .ok none ∨ ∃ e, verdict = .error e) → rest = buf

theorem not_incomplete {a b c d : UInt8} {data : List UInt8}
    (hlen : (fromBeBytes32 a b c d).toNat ≤ data.length) :
    ¬ Incomplete (0 :: a :: b :: c :: d :: data) := by
  rintro (hshort | ⟨-, len, hdeclared, hlt⟩)
  · simp only [List.length_cons] at hshort
    omega
  · cases hdeclared
    simp only [List.length_cons] at hlt
    omega

theorem incomplete_iff (buf : List UInt8) :
    (GrpcCodec.parseGrpcMessageZerocopy buf).1 = .ok none ↔ Incomplete buf := by
  have hcase := parse_cases buf
  generalize GrpcCodec.parseGrpcMessageZerocopy buf = result at hcase
  cases hcase with
  | short hshort => exact iff_of_true rfl (.inl hshort)
  | @compressed flag rest hbuf hflag hlen =>
      refine iff_of_false (by simp) ?_
      rintro (hshort | ⟨hhead, -⟩)
      · omega
      · rw [hbuf] at hhead
        exact hflag (Option.some.inj hhead)
  | @incomplete a b c d data hbuf hlen =>
      refine iff_of_true rfl (.inr ⟨by rw [hbuf]; rfl, _, by rw [hbuf]; rfl, ?_⟩)
      rw [hbuf]
      simp only [List.length_cons]
      omega
  | @malformed a b c d data e hbuf hlen hbody =>
      rw [hbuf]
      exact iff_of_false (by simp) (not_incomplete hlen)
  | @frame a b c d data fields hbuf hlen hbody =>
      rw [hbuf]
      exact iff_of_false (by simp) (not_incomplete hlen)

theorem rest_of_parse {buf rest : List UInt8}
    {verdict : Except IoError (Option (List UInt8 × Nat))}
    (h : GrpcCodec.parseGrpcMessageZerocopy buf = (verdict, rest)) :
    (∃ payload n, verdict = .ok (some (payload, n)) ∧ rest = buf.drop n) ∨
      (verdict = .ok none ∨ ∃ e, verdict = .error e) ∧ rest = buf := by
  have hcase := parse_cases buf
  rw [h] at hcase
  cases hcase with
  | short hshort => exact .inr ⟨.inl rfl, rfl⟩
  | compressed hbuf hflag hlen => exact .inr ⟨.inr ⟨_, rfl⟩, rfl⟩
  | incomplete hbuf hlen => exact .inr ⟨.inl rfl, rfl⟩
  | malformed hbuf hlen hbody => exact .inr ⟨.inr ⟨_, rfl⟩, rfl⟩
  | frame hbuf hlen hbody =>
      refine .inl ⟨_, _, rfl, ?_⟩
      rw [hbuf, ← List.drop_drop]
      rfl

theorem accepted_iff {buf rest payload : List UInt8} {n : Nat}
    {verdict : Except IoError (Option (List UInt8 × Nat))}
    (h : GrpcCodec.parseGrpcMessageZerocopy buf = (verdict, rest)) :
    verdict = .ok (some (payload, n)) ↔ StartsWithFrame buf payload n := by
  rw [startsWithFrame_iff, h]
  constructor
  · rintro rfl
    obtain ⟨payload', n', hsome, hrest⟩ | ⟨hnone | ⟨e, herror⟩, -⟩ := rest_of_parse h
    · cases hsome
      rw [hrest]
    · cases hnone
    · cases herror
  · intro heq
    exact congrArg Prod.fst heq

theorem parsed_of_parse {buf rest : List UInt8}
    {verdict : Except IoError (Option (List UInt8 × Nat))}
    (h : GrpcCodec.parseGrpcMessageZerocopy buf = (verdict, rest)) : Parsed buf verdict rest := by
  have hwaiting : verdict = .ok none ↔ Incomplete buf := by
    rw [← incomplete_iff, h]
  have hrest := rest_of_parse h
  refine ⟨fun payload n => accepted_iff h, hwaiting, ?_, ?_, ?_⟩
  · rw [← hwaiting]
    simp only [← accepted_iff h]
    constructor
    · rintro ⟨e, rfl⟩
      simp
    · rintro ⟨hnone, hsome⟩
      obtain ⟨payload, n, heq, -⟩ | ⟨hnone' | herror, -⟩ := hrest
      · exact absurd heq (hsome payload n)
      · exact absurd hnone' hnone
      · exact herror
  · rintro payload n rfl
    obtain ⟨payload', n', hsome, hdrop⟩ | ⟨hnone | ⟨e, herror⟩, -⟩ := hrest
    · cases hsome
      exact hdrop
    · cases hnone
    · cases herror
  · rintro hother
    obtain ⟨payload', n', rfl, -⟩ | ⟨-, hsame⟩ := hrest
    · rcases hother with hnone | ⟨e, herror⟩
      · cases hnone
      · cases herror
    · exact hsame

/-- The parser returns on every buffer.  It accepts the buffers that start with a frame
and removes it, waits for the rest of a frame, rejects all others, and reads back every
frame of hunks. -/
theorem parse_accepts_exactly_frames :
    (∀ buf, ∃ verdict rest, parseGrpcMessageZerocopy buf = .ok (verdict, rest) ∧
      Parsed buf verdict rest) ∧
    ∀ hunks rest, (multiHunkBody hunks).length < 2 ^ 32 →
      parseGrpcMessageZerocopy (multiHunkFrame hunks ++ rest) =
        .ok (.ok (some (hunks.flatten, (multiHunkFrame hunks).length)), rest) := by
  constructor
  · intro buf
    refine ⟨_, _, parseGrpcMessageZerocopy_eq buf, parsed_of_parse rfl⟩
  · intro hunks rest h
    rw [parseGrpcMessageZerocopy_eq, parse_eq_some_iff.mpr
      ⟨multiHunkFrame hunks, isFrame_multiHunkFrame h, rfl, rfl⟩]

/-- Two hunks and a byte of the next frame. -/
theorem parse_two_hunks :
    parseGrpcMessageZerocopy (multiHunkFrame [[1, 2], [3]] ++ [0]) =
      .ok (.ok (some ([1, 2, 3], 12)), [0]) :=
  parse_accepts_exactly_frames.2 [[1, 2], [3]] [0] (by decide)

end TrojanServer.GrpcIndexing
