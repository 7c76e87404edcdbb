import TrojanServer.FrameDecoding
import TrojanServer.GrpcCodec
import TrojanServer.StrSlice

namespace TrojanServer.GrpcPaths

open TrojanServer.CheckedOps
open TrojanServer.FrameDecoding
open TrojanServer.GrpcCodec
open TrojanServer.StrSlice

section Model

/-- The bytes that `path_escape` leaves alone. -/
def keep (byte : UInt8) : Bool :=
  let c := Char.ofNat byte.toNat
  c.isAlphanum || "-_.~$&+:=@".toList.contains c

def escapeByte (byte : UInt8) : String :=
  if keep byte then String.singleton (Char.ofNat byte.toNat) else "%" ++ fmtHex byte

/-- `utf8_percent_encode` is of the crate `percent_encoding`; `asBytes_pathEscape` says what is
assumed of it. -/
def pathEscape (s : String) : String := String.join ((asBytes s).map escapeByte)

/-- The paths for a service `rawService` and the names of its two streams. -/
def customPaths (rawService ending : List Char) : String × String :=
  let svc := "/".intercalate ((rawService.splitOn '/').map fun s => pathEscape (String.ofList s))
  let names := ending.splitOn '|'
  let tun := names.head?.getD []
  let multi := names[1]?.getD tun
  ("/" ++ svc ++ "/" ++ pathEscape (String.ofList tun),
    "/" ++ svc ++ "/" ++ pathEscape (String.ofList multi))

def grpcPaths (serviceName : String) : Checked (String × String) :=
  match serviceName.toList with
  | '/' :: rest => do
      let last := max ((rfind '/' serviceName.toList).getD 0) 1
      let rawService ← substring serviceName.toList 1 last
      let ending ← substring rest ((rfind '/' rest).elim 0 (· + 1)) (byteLen rest)
      .ok (customPaths rawService ending)
  | _ =>
      let svc := pathEscape serviceName
      .ok ("/" ++ svc ++ "/Tun", "/" ++ svc ++ "/TunMulti")

end Model

section Escape

theorem asBytes_append (s t : String) : asBytes (s ++ t) = asBytes s ++ asBytes t := by
  simp [asBytes]

theorem asBytes_escapeByte (byte : UInt8) :
    asBytes (escapeByte byte) = if keep byte then [byte] else 0x25 :: asBytes (fmtHex byte) := by
  have hall : ∀ n < 256, asBytes (escapeByte (UInt8.ofNat n)) =
      if keep (UInt8.ofNat n) then [UInt8.ofNat n]
      else 0x25 :: asBytes (fmtHex (UInt8.ofNat n)) := by
    decide +kernel
  simpa using hall byte.toNat byte.toNat_lt

/-- Every byte that is not kept becomes a percent sign and two hexadecimal digits, and no other
byte changes. -/
theorem asBytes_pathEscape (s : String) :
    asBytes (pathEscape s) = (asBytes s).flatMap fun byte =>
      if keep byte then [byte] else 0x25 :: asBytes (fmtHex byte) := by
  unfold pathEscape
  induction asBytes s with
  | nil => rfl
  | cons byte bytes ih =>
      rw [List.map_cons, String.join_cons, asBytes_append, asBytes_escapeByte, ih,
        List.flatMap_cons]

end Escape

section Slices

theorem grpcPaths_plain {name : String} (h : name.toList.head? ≠ some '/') :
    grpcPaths name =
      .ok ("/" ++ pathEscape name ++ "/Tun", "/" ++ pathEscape name ++ "/TunMulti") := by
  unfold grpcPaths
  split
  · rename_i hslash
    simp [hslash] at h
  · rfl

theorem width_slash : '/'.utf8Size = 1 := rfl

/-- A single segment is an ending, of a service without a name. -/
theorem grpcPaths_single {name : String} {ending : List Char} (hname : name.toList = '/' :: ending)
    (h : '/' ∉ ending) : grpcPaths name = .ok (customPaths [] ending) := by
  have hlast : rfind '/' ('/' :: ending) = some 0 := rfind_append [] h
  have hservice : substring ('/' :: ending) 1 1 = .ok [] := substring_append ['/'] [] ending
  have hending : substring ending 0 (byteLen ending) = .ok ending := by
    simpa using substring_append [] ending []
  simp only [grpcPaths, hname, hlast, rfind_eq_none h, Option.getD_some, Option.elim_none,
    Nat.max_eq_right (Nat.zero_le 1), hservice, hending, ok_bind]

theorem grpcPaths_segments {name : String} (body : List Char) {ending : List Char}
    (hname : name.toList = '/' :: (body ++ '/' :: ending)) (h : '/' ∉ ending) :
    grpcPaths name = .ok (customPaths body ending) := by
  have hlast : rfind '/' ('/' :: (body ++ '/' :: ending)) = some (1 + byteLen body) :=
    rfind_append ('/' :: body) h
  have hservice : substring ('/' :: (body ++ '/' :: ending)) 1 (1 + byteLen body) = .ok body := by
    simpa [width_slash] using substring_append ['/'] body ('/' :: ending)
  have hending : substring (body ++ '/' :: ending) (byteLen body + 1)
      (byteLen (body ++ '/' :: ending)) = .ok ending := by
    simpa [width_slash, Nat.add_assoc] using substring_append (body ++ ['/']) ending []
  simp only [grpcPaths, hname, hlast, rfind_append body h, Option.getD_some, Option.elim_some,
    Nat.max_eq_left (Nat.le_add_right 1 _), hservice, hending, ok_bind]

end Slices

section Grammar

/-- The path of the service with these segments, up to the name of a stream. -/
def servicePath (segments : List String) : String :=
  "/" ++ "/".intercalate (segments.map pathEscape) ++ "/"

variable {segments : List String} {tun multi : String}

theorem splitOn_segments (hne : segments ≠ [])
    (hsegments : ∀ segment ∈ segments, '/' ∉ segment.toList) :
    ("/".intercalate segments).toList.splitOn '/' = segments.map String.toList := by
  rw [String.toList_intercalate]
  apply List.splitOn_intercalate
  · intro segment hsegment
    obtain ⟨segment, hmem, rfl⟩ := List.mem_map.mp hsegment
    exact hsegments segment hmem
  · simpa using hne

theorem splitOn_names (htun : '|' ∉ tun.toList) (hmulti : '|' ∉ multi.toList) :
    (tun.toList ++ '|' :: multi.toList).splitOn '|' = [tun.toList, multi.toList] := by
  have hnames : (['|'].intercalate [tun.toList, multi.toList]).splitOn '|' =
      [tun.toList, multi.toList] :=
    List.splitOn_intercalate '|' (by simp [htun, hmulti]) (by simp)
  simpa using hnames

theorem customPaths_segments (hne : segments ≠ [])
    (hsegments : ∀ segment ∈ segments, '/' ∉ segment.toList) {ending : List Char}
    {names : List (List Char)} (hnames : ending.splitOn '|' = tun.toList :: names) :
    customPaths ("/".intercalate segments).toList ending =
      (servicePath segments ++ pathEscape tun,
        servicePath segments ++ pathEscape (String.ofList (names[0]?.getD tun.toList))) := by
  have hescaped : (segments.map String.toList).map (fun s => pathEscape (String.ofList s)) =
      segments.map pathEscape := by
    simp
  rw [customPaths, splitOn_segments hne hsegments, hescaped, hnames]
  simp only [List.head?_cons, Option.getD_some, List.getElem?_cons_succ, String.ofList_toList,
    servicePath]

/-- No slice of a service name fails. -/
theorem grpcPaths_ok (name : String) : ∃ paths, grpcPaths name = .ok paths := by
  by_cases hplain : name.toList.head? = some '/'
  · obtain ⟨rest, hname⟩ := List.head?_eq_some_iff.mp hplain
    rcases last_occurrence '/' rest with hnone | ⟨body, ending, rfl, hending⟩
    · exact ⟨_, grpcPaths_single hname hnone⟩
    · exact ⟨_, grpcPaths_segments body hname hending⟩
  · exact ⟨_, grpcPaths_plain hplain⟩

/-- The paths of a service name.  Without a leading slash it is one segment of both paths;
a custom path gives its segments and the names of the streams, and no slice of it fails. -/
theorem grpcPaths_grammar :
    (∀ name : String, name.toList.head? ≠ some '/' →
      grpcPaths name =
        .ok ("/" ++ pathEscape name ++ "/Tun", "/" ++ pathEscape name ++ "/TunMulti")) ∧
      (∀ (segments : List String) (tun multi : String), segments ≠ [] →
        (∀ segment ∈ segments, '/' ∉ segment.toList) →
        '/' ∉ tun.toList → '|' ∉ tun.toList → '/' ∉ multi.toList → '|' ∉ multi.toList →
          grpcPaths ("/" ++ "/".intercalate segments ++ "/" ++ tun ++ "|" ++ multi) =
              .ok (servicePath segments ++ pathEscape tun,
                servicePath segments ++ pathEscape multi) ∧
            grpcPaths ("/" ++ "/".intercalate segments ++ "/" ++ tun) =
              .ok (servicePath segments ++ pathEscape tun,
                servicePath segments ++ pathEscape tun)) ∧
      ∀ name, ∃ paths, grpcPaths name = .ok paths := by
  refine ⟨fun _ => grpcPaths_plain, ?_, grpcPaths_ok⟩
  intro segments tun multi hne hsegments htun htun' hmulti hmulti'
  constructor
  · have hending : '/' ∉ tun.toList ++ '|' :: multi.toList := by simp [htun, hmulti]
    rw [grpcPaths_segments ("/".intercalate segments).toList (by simp) hending,
      customPaths_segments hne hsegments (splitOn_names htun' hmulti')]
    simp only [List.getElem?_cons_zero, Option.getD_some, String.ofList_toList]
  · rw [grpcPaths_segments ("/".intercalate segments).toList (by simp) htun,
      customPaths_segments hne hsegments (List.splitOn_eq_singleton htun')]
    simp only [List.getElem?_nil, Option.getD_none, String.ofList_toList]

end Grammar

theorem grpcPaths_grammar_hello :
    grpcPaths "/hello /world!/a|b" = .ok ("/hello%20/world%21/a", "/hello%20/world%21/b") := by
  have hname : "/" ++ "/".intercalate ["hello ", "world!"] ++ "/" ++ "a" ++ "|" ++ "b" =
      "/hello /world!/a|b" := by decide
  have hservice : servicePath ["hello ", "world!"] = "/hello%20/world%21/" := by decide
  have htun : pathEscape "a" = "a" := by decide
  have hmulti : pathEscape "b" = "b" := by decide
  have hpaths := (grpcPaths_grammar.2.1 ["hello ", "world!"] "a" "b" (by decide) (by decide)
    (by decide) (by decide) (by decide) (by decide)).1
  rw [hname, hservice, htun, hmulti] at hpaths
  exact hpaths

end TrojanServer.GrpcPaths
