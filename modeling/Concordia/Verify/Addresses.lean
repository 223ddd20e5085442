import Mathlib.Data.List.TakeWhile
import Concordia.Js.Value

/-! Internet addresses: their spellings, the restricted ranges, and which addresses are public. -/
namespace Concordia.Verify
open Concordia.Js

inductive Address where
  | v4 (value : BitVec 32)
  | v6 (value : BitVec 128)
  deriving DecidableEq, Repr

section Spellings

def period : UInt16 := 0x2e
def colon : UInt16 := 0x3a
def percent : UInt16 := 0x25

/-- `25[0-5]|2[0-4]\d|1\d\d|[1-9]\d|\d`. -/
def octet (part : JsString) : Option Nat :=
  if isCanonicalDecimal part && digitsValue part ≤ 255 then some (digitsValue part) else none

def quad (a b c d : Nat) : Nat := ((a * 256 + b) * 256 + c) * 256 + d

/-- Four octets between periods. -/
def parseQuad (text : JsString) : Option Nat :=
  match text.splitOn period with
  | [a, b, c, d] => do return quad (← octet a) (← octet b) (← octet c) (← octet d)
  | _ => none

def hexLetter (u : UInt16) : Option Nat :=
  if isDigit u then some (u.toNat - 48)
  else if 97 ≤ u ∧ u ≤ 102 then some (u.toNat - 87)
  else if 65 ≤ u ∧ u ≤ 70 then some (u.toNat - 55)
  else none

/-- `[0-9a-fA-F]{1,4}`. -/
def hextet (part : JsString) : Option Nat :=
  if 1 ≤ part.length ∧ part.length ≤ 4 then
    part.foldlM (fun value u => (hexLetter u).map (16 * value + ·)) 0
  else none

/-- The groups of colon-separated parts; an IPv4 address may stand for the last two. -/
def parseGroups (tail : Bool) : List JsString → Option (List Nat)
  | [] => some []
  | [part] =>
    match hextet part with
    | some group => some [group]
    | none => if tail then (parseQuad part).map fun n => [n / 65536, n % 65536] else none
  | part :: parts => do
    let group ← hextet part
    let groups ← parseGroups tail parts
    return group :: groups

/-- What stands before and behind the first `::`. -/
def splitGap : JsString → Option (JsString × JsString)
  | [] => none
  | u :: rest =>
    if u = colon ∧ rest.head? = some colon then some ([], rest.tail)
    else (splitGap rest).map fun (before, after) => (u :: before, after)

def parts (text : JsString) : List JsString :=
  if text.isEmpty then [] else text.splitOn colon

/-- The eight groups of an IPv6 address, the gap filled with zeros. -/
def parseEight (text : JsString) : Option (List Nat) :=
  match splitGap text with
  | none => do
    let groups ← parseGroups true (text.splitOn colon)
    if groups.length = 8 then some groups else none
  | some (before, after) => do
    let left ← parseGroups false (parts before)
    let right ← parseGroups true (parts after)
    if left.length + right.length ≤ 7 then
      some (left ++ List.replicate (8 - left.length - right.length) 0 ++ right)
    else none

def groupsValue (groups : List Nat) : Nat := groups.foldl (fun n group => 65536 * n + group) 0

/-- `(?:%[0-9a-zA-Z-.:]{1,})?$`: a zone does not belong to the address. -/
def isZone (text : JsString) : Bool :=
  match text with
  | [] => true
  | u :: zone => u == percent && !zone.isEmpty && zone.all fun v =>
    isDigit v || (97 ≤ v && v ≤ 122) || (65 ≤ v && v ≤ 90) || v == 0x2d || v == period || v == colon

def parseIPv6 (text : JsString) : Option Nat :=
  let (body, zone) := text.span (· != percent)
  if isZone zone then (parseEight body).map groupsValue else none

def parseAddress (text : JsString) : Option Address :=
  match parseQuad text with
  | some n => some (.v4 (BitVec.ofNat 32 n))
  | none => (parseIPv6 text).map fun n => .v6 (BitVec.ofNat 128 n)

/-- `isIP`: the family of an address, or 0. -/
def isIP (text : JsString) : Nat :=
  match parseAddress text with
  | some (.v4 _) => 4
  | some (.v6 _) => 6
  | none => 0

theorem isIP_ne_zero {text : JsString} : isIP text ≠ 0 ↔ ∃ a, parseAddress text = some a := by
  unfold isIP
  rcases parseAddress text with _ | _ | _ <;> simp

theorem isIP_family {text : JsString} (h : isIP text ≠ 0) : isIP text = 4 ∨ isIP text = 6 := by
  obtain ⟨a, heq⟩ := isIP_ne_zero.mp h
  unfold isIP
  rw [heq]
  cases a with
  | v4 => exact .inl rfl
  | v6 => exact .inr rfl

theorem splitOn_concat {sep c : UInt16} (hc : c ≠ sep) (text : JsString) :
    ∃ before last, (text ++ [c]).splitOn sep = before ++ [last ++ [c]] := by
  induction text with
  | nil => exact ⟨[], [], by simp [List.splitOn_cons_eq_if_modifyHead, hc]⟩
  | cons u text ih =>
    obtain ⟨before, last, heq⟩ := ih
    rw [List.cons_append, List.splitOn_cons_eq_if_modifyHead, heq]
    split
    · exact ⟨[] :: before, last, rfl⟩
    · cases before with
      | nil => exact ⟨[], u :: last, rfl⟩
      | cons part before => exact ⟨(u :: part) :: before, last, rfl⟩

theorem parseQuad_concat (text : JsString) : parseQuad (text ++ [period]) = none := by
  have hsplit := List.splitOn_append_cons_self text [] (a := period)
  simp only [List.splitOn_nil] at hsplit
  unfold parseQuad
  rw [hsplit]
  split
  · rename_i a b c d heq
    have hd : d = [] := by
      have := congrArg List.getLast? heq
      simpa using this.symm
    subst hd
    simp [octet, isCanonicalDecimal]
  · rfl

theorem hextet_concat (text : JsString) : hextet (text ++ [period]) = none := by
  unfold hextet
  split
  · rw [List.foldlM_append]
    have hperiod : hexLetter period = none := by decide
    simp [hperiod]
  · rfl

theorem parseGroups_concat (tail : Bool) (before : List JsString) (text : JsString) :
    parseGroups tail (before ++ [text ++ [period]]) = none := by
  induction before with
  | nil => simp [parseGroups, hextet_concat, parseQuad_concat]
  | cons part before ih =>
    obtain ⟨next, rest, heq⟩ := List.exists_cons_of_ne_nil
      (List.append_ne_nil_of_right_ne_nil before (List.cons_ne_nil (text ++ [period]) []))
    rw [heq] at ih
    rw [List.cons_append, heq]
    cases hextet part <;> simp [parseGroups, ih, *]

theorem splitGap_concat (text : JsString) :
    splitGap (text ++ [period]) = none ∨ ∃ before after,
      splitGap (text ++ [period]) = some (before, after ++ [period]) := by
  induction text with
  | nil => exact .inl (by decide)
  | cons u text ih =>
    simp only [List.cons_append, splitGap]
    split
    · rename_i hgap
      cases text with
      | nil => simp [period, colon] at hgap
      | cons v text => exact .inr ⟨[], text, rfl⟩
    · rcases ih with hnone | ⟨before, after, hsome⟩
      · exact .inl (by rw [hnone]; rfl)
      · exact .inr ⟨u :: before, after, by rw [hsome]; rfl⟩

theorem parseEight_concat (text : JsString) : parseEight (text ++ [period]) = none := by
  have hne : period ≠ colon := by decide
  unfold parseEight
  rcases splitGap_concat text with hgap | ⟨before, after, hgap⟩
  · obtain ⟨front, last, heq⟩ := splitOn_concat hne text
    simp [hgap, heq, parseGroups_concat]
  · obtain ⟨front, last, heq⟩ := splitOn_concat hne after
    simp [hgap, parts, heq, parseGroups_concat]

/-- The spelling of an address that has no zone does not end with a period. -/
theorem parseAddress_concat {text : JsString} (hzone : percent ∉ text) :
    parseAddress (text ++ [period]) = none := by
  have hplain : ∀ u ∈ text ++ [period], (u != percent) = true := by
    intro u hu
    rcases List.mem_append.mp hu with hmem | hmem
    · exact bne_iff_ne.mpr fun heq => hzone (heq ▸ hmem)
    · rw [List.mem_singleton.mp hmem]
      decide
  have htake : (text ++ [period]).takeWhile (· != percent) = text ++ [period] :=
    List.takeWhile_eq_self_iff.mpr hplain
  have hdrop : (text ++ [period]).dropWhile (· != percent) = [] :=
    List.dropWhile_eq_nil_iff.mpr hplain
  simp [parseAddress, parseQuad_concat, parseIPv6, List.span_eq_takeWhile_dropWhile, htake, hdrop,
    isZone, parseEight_concat]

end Spellings

section BlockLists

/-- The networks are the same up to the length of the prefix. -/
def samePrefix (width length network value : Nat) : Bool :=
  value / 2 ^ (width - length) == network / 2 ^ (width - length)

/-- A `BlockList`, by its networks and their prefixes. -/
abbrev BlockList := List (Address × Nat)

/-- `addSubnet` for every entry; every network of the tables below is an address. -/
def addSubnets (entries : List (String × Nat)) : BlockList :=
  entries.filterMap fun (network, length) => (parseAddress (js network)).map (·, length)

/-- `check`: addresses of the other family do not match. -/
def BlockList.check (list : BlockList) (address : Address) : Bool :=
  list.any fun (network, length) =>
    match network, address with
    | .v4 n, .v4 a => samePrefix 32 length n.toNat a.toNat
    | .v6 n, .v6 a => samePrefix 128 length n.toNat a.toNat
    | _, _ => false

/-- `RESTRICTED_IPV4`. -/
def restrictedIpv4Subnets : List (String × Nat) := [
  ("0.0.0.0", 8), ("10.0.0.0", 8), ("100.64.0.0", 10), ("127.0.0.0", 8), ("169.254.0.0", 16),
  ("172.16.0.0", 12), ("192.0.0.0", 24), ("192.0.2.0", 24), ("192.88.99.0", 24),
  ("192.168.0.0", 16), ("198.18.0.0", 15), ("198.51.100.0", 24), ("203.0.113.0", 24),
  ("224.0.0.0", 4), ("240.0.0.0", 4)]

/-- `RESTRICTED_IPV6`. -/
def restrictedIpv6Subnets : List (String × Nat) := [
  ("::", 96), ("::1", 128), ("64:ff9b::", 96), ("64:ff9b:1::", 48), ("100::", 64), ("2001::", 23),
  ("2001:db8::", 32), ("2002::", 16), ("3fff::", 20), ("5f00::", 16), ("fc00::", 7),
  ("fe80::", 10), ("fec0::", 10), ("ff00::", 8)]

/-- `::ffff:${network}`, `96 + prefix`. -/
def mappedSubnets : List (String × Nat) :=
  restrictedIpv4Subnets.map fun (network, length) => ("::ffff:" ++ network, 96 + length)

def restrictedIpv4 : BlockList := addSubnets restrictedIpv4Subnets

def restrictedIpv6 : BlockList := addSubnets (mappedSubnets ++ restrictedIpv6Subnets)

/-- The condition under which `assertPublicAddress` does not throw. -/
def isPublicAddress (text : JsString) : Bool :=
  match parseAddress text with
  | none => false
  | some (.v4 n) => !restrictedIpv4.check (.v4 n)
  | some (.v6 n) => !restrictedIpv6.check (.v6 n)

end BlockLists

section Ranges

/-- The restricted IPv4 ranges as numbers. -/
def ipv4Ranges : List (Nat × Nat) := [
  (quad 0 0 0 0, 8), (quad 10 0 0 0, 8), (quad 100 64 0 0, 10), (quad 127 0 0 0, 8),
  (quad 169 254 0 0, 16), (quad 172 16 0 0, 12), (quad 192 0 0 0, 24), (quad 192 0 2 0, 24),
  (quad 192 88 99 0, 24), (quad 192 168 0 0, 16), (quad 198 18 0 0, 15), (quad 198 51 100 0, 24),
  (quad 203 0 113 0, 24), (quad 224 0 0 0, 4), (quad 240 0 0 0, 4)]

/-- The restricted IPv6 ranges as numbers. -/
def ipv6Ranges : List (Nat × Nat) := [
  (0, 96), (1, 128), (0x64ff9b * 2 ^ 96, 96), (0x64ff9b0001 * 2 ^ 80, 48), (0x100 * 2 ^ 112, 64),
  (0x2001 * 2 ^ 112, 23), (0x20010db8 * 2 ^ 96, 32), (0x2002 * 2 ^ 112, 16),
  (0x3fff * 2 ^ 112, 20), (0x5f00 * 2 ^ 112, 16), (0xfc00 * 2 ^ 112, 7), (0xfe80 * 2 ^ 112, 10),
  (0xfec0 * 2 ^ 112, 10), (0xff00 * 2 ^ 112, 8)]

/-- `value` lies in one of the ranges, of addresses of `width` bits. -/
def InRanges (width : Nat) (ranges : List (Nat × Nat)) (value : Nat) : Prop :=
  ∃ range ∈ ranges, value / 2 ^ (width - range.2) = range.1 / 2 ^ (width - range.2)

/-- The IPv6 addresses that carry an IPv4 address. -/
inductive Embeds (embedded : Nat) : Nat → Prop
  | mapped : Embeds embedded (0xffff * 2 ^ 32 + embedded)
  | compatible : Embeds embedded embedded
  | nat64 : Embeds embedded (0x64ff9b * 2 ^ 96 + embedded)
  | sixToFour {rest : Nat} (h : rest < 2 ^ 80) :
      Embeds embedded (0x2002 * 2 ^ 112 + embedded * 2 ^ 80 + rest)

/-- An address outside the restricted ranges that embeds no address inside of them. -/
def Public : Address → Prop
  | .v4 n => ¬ InRanges 32 ipv4Ranges n.toNat
  | .v6 n => ¬ InRanges 128 ipv6Ranges n.toNat ∧
    ∀ embedded < 2 ^ 32, Embeds embedded n.toNat → ¬ InRanges 32 ipv4Ranges embedded

/-- The tables of the source spell these numbers. -/
theorem restrictedIpv4_eq :
    restrictedIpv4 = ipv4Ranges.map fun range => (.v4 (BitVec.ofNat 32 range.1), range.2) := by
  decide +kernel

theorem restrictedIpv6_eq :
    restrictedIpv6 =
      ipv4Ranges.map (fun range =>
        (.v6 (BitVec.ofNat 128 (0xffff * 2 ^ 32 + range.1)), 96 + range.2)) ++
      ipv6Ranges.map fun range => (.v6 (BitVec.ofNat 128 range.1), range.2) := by
  decide +kernel

theorem ipv4Ranges_bounds : ∀ range ∈ ipv4Ranges, range.1 < 2 ^ 32 ∧ range.2 ≤ 32 := by decide

theorem ipv6Ranges_bounds : ∀ range ∈ ipv6Ranges, range.1 < 2 ^ 128 := by decide

theorem samePrefix_ofNat {width length network value : Nat} (h : network < 2 ^ width) :
    samePrefix width length (BitVec.ofNat width network).toNat value = true ↔
      value / 2 ^ (width - length) = network / 2 ^ (width - length) := by
  rw [samePrefix, BitVec.toNat_ofNat, Nat.mod_eq_of_lt h, beq_iff_eq]

theorem restrictedIpv4_check (n : BitVec 32) :
    restrictedIpv4.check (.v4 n) = true ↔ InRanges 32 ipv4Ranges n.toNat := by
  rw [restrictedIpv4_eq, BlockList.check, List.any_map, List.any_eq_true]
  refine exists_congr fun range => and_congr_right fun hmem => ?_
  exact samePrefix_ofNat (ipv4Ranges_bounds range hmem).1

theorem restrictedIpv6_check (n : BitVec 128) :
    restrictedIpv6.check (.v6 n) = true ↔
      (∃ range ∈ ipv4Ranges, n.toNat / 2 ^ (128 - (96 + range.2)) =
        (0xffff * 2 ^ 32 + range.1) / 2 ^ (128 - (96 + range.2))) ∨
      InRanges 128 ipv6Ranges n.toNat := by
  rw [restrictedIpv6_eq, BlockList.check, List.any_append, List.any_map, List.any_map,
    Bool.or_eq_true, List.any_eq_true, List.any_eq_true]
  apply or_congr
  · refine exists_congr fun range => and_congr_right fun hmem => ?_
    have hbound := (ipv4Ranges_bounds range hmem).1
    have hlt : 0xffff * 2 ^ 32 + range.1 < 2 ^ 128 := by omega
    exact samePrefix_ofNat hlt
  · refine exists_congr fun range => and_congr_right fun hmem => ?_
    exact samePrefix_ofNat (ipv6Ranges_bounds range hmem)

/-- The prefix of a mapped address is the mapped prefix. -/
theorem mapped_prefix {length network embedded : Nat} (hlength : length ≤ 32)
    (h : embedded / 2 ^ (32 - length) = network / 2 ^ (32 - length)) :
    (0xffff * 2 ^ 32 + embedded) / 2 ^ (128 - (96 + length)) =
      (0xffff * 2 ^ 32 + network) / 2 ^ (128 - (96 + length)) := by
  have hwidth : 128 - (96 + length) = 32 - length := by omega
  have hsplit : 0xffff * 2 ^ 32 = 0xffff * 2 ^ length * 2 ^ (32 - length) := by
    rw [Nat.mul_assoc, ← Nat.pow_add, Nat.add_sub_of_le hlength]
  have hshift (n : Nat) : (0xffff * 2 ^ 32 + n) / 2 ^ (32 - length) =
      0xffff * 2 ^ length + n / 2 ^ (32 - length) := by
    rw [hsplit, Nat.add_comm, Nat.add_mul_div_right _ _ (Nat.two_pow_pos _), Nat.add_comm]
  rw [hwidth, hshift, hshift, h]

/-- An address that embeds one of a restricted range is on the list. -/
theorem embeds_restricted {n : BitVec 128} {embedded : Nat} (hbound : embedded < 2 ^ 32)
    (h : Embeds embedded n.toNat) (hrestricted : InRanges 32 ipv4Ranges embedded) :
    restrictedIpv6.check (.v6 n) = true := by
  rw [restrictedIpv6_check]
  have inRange {network length : Nat} (hmem : (network, length) ∈ ipv6Ranges)
      (hsame : n.toNat / 2 ^ (128 - length) = network / 2 ^ (128 - length)) :
      InRanges 128 ipv6Ranges n.toNat := ⟨_, hmem, hsame⟩
  generalize n.toNat = value at h inRange ⊢
  cases h with
  | mapped =>
    obtain ⟨range, hmem, hsame⟩ := hrestricted
    exact .inl ⟨range, hmem, mapped_prefix (ipv4Ranges_bounds range hmem).2 hsame⟩
  | compatible => exact .inr (@inRange 0 96 (by decide) (by omega))
  | nat64 => exact .inr (@inRange (0x64ff9b * 2 ^ 96) 96 (by decide) (by omega))
  | sixToFour hrest => exact .inr (@inRange (0x2002 * 2 ^ 112) 16 (by decide) (by omega))

/-- What passes the filter is a public address. -/
theorem isPublicAddress_sound {text : JsString} (h : isPublicAddress text = true) :
    ∃ a, parseAddress text = some a ∧ Public a := by
  unfold isPublicAddress at h
  split at h
  · cases h
  · rename_i n heq
    refine ⟨.v4 n, heq, fun hrestricted => ?_⟩
    simp [(restrictedIpv4_check n).mpr hrestricted] at h
  · rename_i n heq
    have hcheck : restrictedIpv6.check (.v6 n) = false := by simpa using h
    refine ⟨.v6 n, heq, fun hrestricted => ?_, fun embedded hbound hembeds hrestricted => ?_⟩
    · have := (restrictedIpv6_check n).mpr (.inr hrestricted)
      exact Bool.false_ne_true (hcheck.symm.trans this)
    · have := embeds_restricted hbound hembeds hrestricted
      exact Bool.false_ne_true (hcheck.symm.trans this)

end Ranges
end Concordia.Verify
