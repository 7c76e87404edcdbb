import TrojanServer.Config
import TrojanServer.RequestCuts

namespace TrojanServer.RequestReader

open TrojanServer.Config
open TrojanServer.FrameDecoding
open TrojanServer.Protocol
open TrojanServer.Protocol.TrojanRequest

section Limit

variable {bufferSize : Nat}

/-- The request is accepted and not found too large. -/
structure Serves (bufferSize : Nat) (head : List UInt8) (pieces : List (List UInt8)) : Prop where
  accepted : ∃ request, Returns bufferSize pieces (.request request) ∧
    head = header request.password request.cmd.byte request.addr
  notTooLarge : ¬ Returns bufferSize pieces (.failed "Request too large")

/-- Less than a whole header is not judged. -/
theorem waiting_of_append {buf more : List UInt8} (hmin : minSize ≤ (buf ++ more).length)
    (h : IsRequest (buf ++ more) (buf ++ more).length) (hmore : more ≠ []) :
    checkComplete buf = .error none := by
  have hcomplete := checkComplete_of_isRequest hmin h
  rcases hcheck : checkComplete buf with (_ | message) | n
  · rfl
  · rw [checkComplete_append_of_invalid hcheck] at hcomplete
    cases hcomplete
  · rw [checkComplete_append_of_ok hcheck] at hcomplete
    obtain ⟨-, hn, -⟩ := checkComplete_eq_ok_iff.mp hcheck
    have hlen := Except.ok.inj hcomplete
    have hpos := List.length_pos_iff.mpr hmore
    rw [List.length_append] at hlen
    omega

variable (bufferSize) in
theorem readPieces_header {pieces : List (List UInt8)} {buf head : List UInt8}
    (hmin : minSize ≤ head.length) (hrequest : IsRequest head head.length)
    (hnonempty : ∀ piece ∈ pieces, piece ≠ []) (hne : pieces ≠ [])
    (hhead : buf ++ pieces.flatten = head) :
    (head.length ≤ bufferSize * 2 ∧ ∃ request,
      (Reader.readPieces bufferSize ⟨buf, none⟩ pieces).outcome = some (.request request) ∧
        head = header request.password request.cmd.byte request.addr) ∨
    (bufferSize * 2 < head.length ∧
      (Reader.readPieces bufferSize ⟨buf, none⟩ pieces).outcome =
        some (.failed "Request too large")) := by
  induction pieces generalizing buf with
  | nil => exact absurd rfl hne
  | cons piece pieces ih =>
      have hne := hnonempty piece List.mem_cons_self
      have hstep := step_piece (r := ⟨buf, none⟩) bufferSize rfl hne
      rw [List.flatten_cons, ← List.append_assoc] at hhead
      split at hstep
      · rename_i hlarge
        rw [readPieces_cons hstep, readPieces_of_returned rfl]
        refine .inr ⟨?_, rfl⟩
        rw [← hhead, List.length_append]
        simp only at hlarge
        omega
      · rename_i hfits
        rw [readPieces_cons hstep]
        rcases pieces with _ | ⟨next, pieces⟩
        · rw [List.flatten_nil, List.append_nil] at hhead
          simp only [hhead] at hfits ⊢
          have hcheck := checkComplete_of_isRequest hmin hrequest
          obtain ⟨request, hprobe, hheader, -, -⟩ := probe_of_ok hcheck
          refine .inl ⟨Nat.le_of_not_lt hfits, request, ?_, ?_⟩
          · rw [readPieces_of_returned hprobe, hprobe]
          · rw [← hheader, List.take_length]
        · have hrest := fun p hp => hnonempty p (List.mem_cons_of_mem piece hp)
          have hmore : (next :: pieces).flatten ≠ [] := by
            simp [hrest next List.mem_cons_self]
          have hcheck : checkComplete (buf ++ piece) = .error none :=
            waiting_of_append (by rwa [hhead]) (by rwa [hhead]) hmore
          simp only [probe_of_waiting hcheck]
          exact ih hrest (by simp) hhead

theorem serves_iff {head : List UInt8} {pieces : List (List UInt8)}
    (hmin : minSize ≤ head.length) (hrequest : IsRequest head head.length)
    (h : Pieces bufferSize head pieces) :
    Serves bufferSize head pieces ↔ head.length ≤ bufferSize * 2 := by
  have hne : pieces ≠ [] := by
    rintro rfl
    have hflatten := h.flatten
    simp only [List.flatten_nil] at hflatten
    rw [← hflatten] at hmin
    exact absurd hmin (by decide)
  have hcases := readPieces_header bufferSize hmin hrequest h.nonempty hne
    (show [] ++ pieces.flatten = head from h.flatten)
  rw [← start_eq] at hcases
  constructor
  · rintro ⟨⟨request, haccepted, -⟩, -⟩
    rw [returns_iff] at haccepted
    rcases hcases with ⟨hle, -⟩ | ⟨-, hlarge⟩
    · exact hle
    · rw [hlarge] at haccepted
      cases haccepted
  · intro hle
    rcases hcases with ⟨-, request, haccepted, hheader⟩ | ⟨hlt, -⟩
    · refine ⟨⟨request, returns_iff.mpr haccepted, hheader⟩, ?_⟩
      rw [returns_iff, haccepted]
      simp
    · omega

end Limit

section Sizes

variable {bufferSize : Nat}

theorem isRequest_header {cmd : UInt8} {addr : Address} (hcmd : IsCmd cmd)
    (haddr : addr.Encodable) (password : Octets 56) :
    IsRequest (header password cmd addr) (header password cmd addr).length :=
  ⟨Nat.le_refl _, password, cmd, addr, hcmd, haddr, List.take_length⟩

theorem pieces_singletons (stream : List UInt8) (h : 0 < bufferSize) :
    Pieces bufferSize stream (stream.map fun byte => [byte]) where
  flatten := by
    rw [← List.flatMap_def]
    exact List.flatMap_singleton' stream
  nonempty := by simp
  size := by
    intro piece hpiece
    obtain ⟨byte, -, rfl⟩ := List.mem_map.mp hpiece
    exact h

def longHost : String := String.ofList (List.replicate 255 'a')

/-- A header of the largest size. -/
def longHeader : List UInt8 :=
  header (List.Vector.replicate 56 97) 1 (.domain longHost 80)

theorem size_longHost : longHost.utf8ByteSize = 255 := by decide +kernel

theorem length_longHeader : longHeader.length = 320 := by
  rw [longHeader, length_header, Address.length_encode_domain (Nat.le_of_eq size_longHost),
    size_longHost]

theorem isRequest_longHeader : IsRequest longHeader longHeader.length := by
  apply isRequest_header (.inl rfl)
  exact Nat.le_of_eq size_longHost

/-- A buffer size that passes validation serves a header exactly if twice the size has
room for it, so all headers exactly from 160 on. -/
theorem validated_size_serves_iff {exist : String → Bool} {args : CliArgs}
    (hvalid : args.validate exist = .ok ()) :
    (∀ head pieces, minSize ≤ head.length → IsRequest head head.length →
      Pieces args.bufferSize head pieces →
      (Serves args.bufferSize head pieces ↔ head.length ≤ args.bufferSize * 2)) ∧
    ((∀ head pieces, minSize ≤ head.length → IsRequest head head.length →
      Pieces args.bufferSize head pieces → Serves args.bufferSize head pieces) ↔
      160 ≤ args.bufferSize) := by
  refine ⟨fun head pieces hmin hrequest h => serves_iff hmin hrequest h, ?_, ?_⟩
  · intro hall
    obtain ⟨hpos, -⟩ := bufferSize_of_validate hvalid
    have hpieces := pieces_singletons longHeader hpos
    have hmin : minSize ≤ longHeader.length := by
      rw [length_longHeader]
      decide
    have hserves := hall longHeader _ hmin isRequest_longHeader hpieces
    rw [serves_iff hmin isRequest_longHeader hpieces, length_longHeader] at hserves
    omega
  · intro hsize head pieces hmin hrequest h
    rw [serves_iff hmin hrequest h]
    obtain ⟨-, password, cmd, addr, -, haddr, htake⟩ := hrequest
    rw [List.take_length] at htake
    have hlen := length_header_le haddr password cmd
    rw [← htake] at hlen
    omega

/-- The default size serves the largest header. -/
theorem default_size_serves :
    Serves (defaultArgs 32768).bufferSize longHeader (longHeader.map fun byte => [byte]) := by
  have hvalid : (defaultArgs 32768).validate (fun _ => true) = .ok () :=
    validate_defaultArgs (by decide) (by decide)
  have hmin : minSize ≤ longHeader.length := by
    rw [length_longHeader]
    decide
  refine (validated_size_serves_iff hvalid).2.mpr (by decide) longHeader _ hmin
    isRequest_longHeader (pieces_singletons _ (by decide))

def shortHeader : List UInt8 :=
  header (List.Vector.replicate 56 97) 1 (.ipv4 (1 ::ᵥ 2 ::ᵥ 3 ::ᵥ 4 ::ᵥ .nil) 80)

/-- With a buffer size of one, which passes validation, the third byte of any request is
too much. -/
theorem one_byte_buffer_refuses :
    (defaultArgs 1).validate (fun _ => true) = .ok () ∧
      minSize ≤ shortHeader.length ∧ IsRequest shortHeader shortHeader.length ∧
      Pieces 1 shortHeader (shortHeader.map fun byte => [byte]) ∧
      Returns 1 (shortHeader.map fun byte => [byte]) (.failed "Request too large") ∧
      ¬ Serves 1 shortHeader (shortHeader.map fun byte => [byte]) := by
  have hlarge : Returns 1 (shortHeader.map fun byte => [byte]) (.failed "Request too large") :=
    ⟨[.ok [97], .ok [97], .ok [97]], _, _, by decide, rfl, rfl⟩
  refine ⟨validate_defaultArgs (by decide) (by decide), ?_, ?_, pieces_singletons _ (by decide),
    hlarge, fun hserves => hserves.notTooLarge hlarge⟩
  · rw [shortHeader, length_header, Address.length_encode_ipv4]
    decide
  · apply isRequest_header (.inl rfl)
    trivial

end Sizes

end TrojanServer.RequestReader
