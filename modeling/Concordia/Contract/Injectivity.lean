import Concordia.Contract.Encoding

/-! Canonical bytes determine the typed envelope: each field is either of fixed
width or behind its length, and the header fixes which body layout follows. -/
namespace Concordia.Contract
open Concordia.Lib.Encoding

theorem except_bind_ok {ε α β : Type} {x : Except ε α} {f : α → Except ε β} {b : β} :
    (x >>= f) = .ok b ↔ ∃ a, x = .ok a ∧ f a = .ok b := by
  cases x <;> simp [bind, Except.bind]

theorem exists_unit {p : Unit → Prop} : (∃ a, p a) ↔ p () :=
  ⟨fun ⟨_, h⟩ => h, fun h => ⟨(), h⟩⟩

theorem validatePrintable_length {value : String} {min max : Nat}
    (h : validatePrintable value min max = true) : (asBytes value).length ≤ max := by
  simp only [validatePrintable, Bool.and_eq_true, decide_eq_true_eq] at h
  exact h.1.2

theorem putString_ok {value : String} {min max : Nat} {error : ValidationError}
    {bytes : List UInt8} (hmax : max < 2 ^ 32)
    (h : putString value min max error = .ok bytes) :
    (asBytes value).length ≤ max ∧ bytes = lengthPrefixed 4 (asBytes value) := by
  unfold putString at h
  split at h
  · rename_i hp
    have hlen := validatePrintable_length hp
    have hword : (UInt32.ofNat (asBytes value).length).toNat = (asBytes value).length :=
      UInt32.toNat_ofNat_of_lt' (hlen.trans_lt hmax)
    refine ⟨hlen, ?_⟩
    rw [← Except.ok.inj h, lengthPrefixed, putU32, hword]
  · cases h

theorem string_cut {v w : String} {r s : List UInt8} (hv : (asBytes v).length ≤ 64)
    (hw : (asBytes w).length ≤ 64)
    (h : lengthPrefixed 4 (asBytes v) ++ r = lengthPrefixed 4 (asBytes w) ++ s) :
    v = w ∧ r = s := by
  obtain ⟨hb, hr⟩ := lengthPrefixed_cut (by omega) (by omega) h
  exact ⟨asBytes_injective hb, hr⟩

theorem bytes32_cut {v w : Bytes32} {r s : List UInt8}
    (h : v.toList ++ r = w.toList ++ s) : v = w ∧ r = s := by
  obtain ⟨hb, hr⟩ := List.append_inj h (by simp)
  exact ⟨Vector.toList_inj.mp hb, hr⟩

theorem u8_cut {v w : UInt8} {r s : List UInt8} (h : [v] ++ r = [w] ++ s) :
    v = w ∧ r = s := by
  simpa using h

theorem u32_cut {v w : UInt32} {r s : List UInt8} (h : putU32 v ++ r = putU32 w ++ s) :
    v = w ∧ r = s := by
  obtain ⟨hn, hr⟩ := beBytes_cut v.toNat_lt w.toNat_lt h
  exact ⟨UInt32.toNat_inj.mp hn, hr⟩

theorem u64_cut {v w : UInt64} {r s : List UInt8} (h : putU64 v ++ r = putU64 w ++ s) :
    v = w ∧ r = s := by
  obtain ⟨hn, hr⟩ := beBytes_cut v.toNat_lt w.toNat_lt h
  exact ⟨UInt64.toNat_inj.mp hn, hr⟩

theorem unsigned_cut {k bits : Nat} (hk : bits = 8 * k) {v w : Unsigned bits}
    {r s : List UInt8} (h : beBytes k v.toNat ++ r = beBytes k w.toNat ++ s) :
    v = w ∧ r = s := by
  have width : (2 : Nat) ^ bits = 256 ^ k := by rw [hk, pow_mul]; norm_num
  obtain ⟨hn, hr⟩ := beBytes_cut (width ▸ v.isLt) (width ▸ w.isLt) h
  exact ⟨Unsigned.ext hn, hr⟩

theorem CommonHeader.canonicalBytes_cut {h k : CommonHeader} {x y r s : List UInt8}
    (hx : h.canonicalBytes = .ok x) (hy : k.canonicalBytes = .ok y)
    (e : x ++ r = y ++ s) : h = k ∧ r = s := by
  simp only [canonicalBytes, except_bind_ok, Except.ok.injEq, pure, Except.pure] at hx hy
  obtain ⟨-, -, c₁, hc₁, p₁, hp₁, rfl⟩ := hx
  obtain ⟨-, -, c₂, hc₂, p₂, hp₂, rfl⟩ := hy
  obtain ⟨lc₁, rfl⟩ := putString_ok (by decide) hc₁
  obtain ⟨lc₂, rfl⟩ := putString_ok (by decide) hc₂
  obtain ⟨lp₁, rfl⟩ := putString_ok (by decide) hp₁
  obtain ⟨lp₂, rfl⟩ := putString_ok (by decide) hp₂
  simp only [List.append_assoc] at e
  obtain ⟨schema, e⟩ := u32_cut e
  obtain ⟨domain, e⟩ := bytes32_cut e
  obtain ⟨chain, e⟩ := string_cut (by omega) (by omega) e
  obtain ⟨proposal, e⟩ := string_cut lp₁ lp₂ e
  obtain ⟨nonce, e⟩ := bytes32_cut e
  obtain ⟨decision, e⟩ := u8_cut e
  obtain ⟨requested, e⟩ := u32_cut e
  obtain ⟨approved, e⟩ := u32_cut e
  obtain ⟨kind, e⟩ := u8_cut e
  obtain ⟨version, e⟩ := u32_cut e
  obtain ⟨action, e⟩ := bytes32_cut e
  obtain ⟨proposalHash, e⟩ := bytes32_cut e
  obtain ⟨policy, e⟩ := bytes32_cut e
  obtain ⟨plan, e⟩ := bytes32_cut e
  obtain ⟨card, e⟩ := bytes32_cut e
  obtain ⟨dissent, e⟩ := bytes32_cut e
  obtain ⟨agent, e⟩ := bytes32_cut e
  obtain ⟨evidence, e⟩ := bytes32_cut e
  obtain ⟨metadata, e⟩ := bytes32_cut e
  refine ⟨?_, e⟩
  cases h; cases k
  simp_all

theorem NativeTransferV1.canonicalBytes_inj {b c : NativeTransferV1} {x : List UInt8}
    (hx : b.canonicalBytes = .ok x) (hy : c.canonicalBytes = .ok x) : b = c := by
  simp only [canonicalBytes, except_bind_ok, Except.ok.injEq, pure, Except.pure] at hx hy
  obtain ⟨-, -, t₁, ht₁, rfl⟩ := hx
  obtain ⟨-, -, t₂, ht₂, e⟩ := hy
  obtain ⟨lt₁, rfl⟩ := putString_ok (by decide) ht₁
  obtain ⟨lt₂, rfl⟩ := putString_ok (by decide) ht₂
  rw [← List.append_nil (putU32 c.executionVersion),
    ← List.append_nil (putU32 b.executionVersion)] at e
  simp only [List.append_assoc] at e
  obtain ⟨kind, e⟩ := u8_cut e
  obtain ⟨source, e⟩ := bytes32_cut e
  obtain ⟨recipient, e⟩ := bytes32_cut e
  obtain ⟨amount, e⟩ := unsigned_cut rfl e
  obtain ⟨balance, e⟩ := unsigned_cut rfl e
  obtain ⟨block, e⟩ := bytes32_cut e
  obtain ⟨height, e⟩ := u64_cut e
  obtain ⟨transfer, e⟩ := u64_cut e
  obtain ⟨nonce, e⟩ := bytes32_cut e
  obtain ⟨target, e⟩ := string_cut lt₂ lt₁ e
  obtain ⟨version, -⟩ := u32_cut e
  cases b; cases c
  simp_all

/-- The x402 body up to the nonce: everything `put_prefix` writes. -/
theorem OfficialX402SettlementV1.putPrefix_cut {b c : OfficialX402SettlementV1}
    {x y r s : List UInt8} (hx : b.putPrefix = .ok x) (hy : c.putPrefix = .ok y)
    (e : x ++ r = y ++ s) :
    { b with actionNonce := c.actionNonce, settlementTarget := c.settlementTarget,
             settlementVersion := c.settlementVersion } = c ∧ r = s := by
  simp only [putPrefix, except_bind_ok, Except.ok.injEq, pure, Except.pure] at hx hy
  obtain ⟨s₁, hs₁, n₁, hn₁, t₁, ht₁, y₁, hy₁, v₁, hv₁, rfl⟩ := hx
  obtain ⟨s₂, hs₂, n₂, hn₂, t₂, ht₂, y₂, hy₂, v₂, hv₂, rfl⟩ := hy
  obtain ⟨ls₁, rfl⟩ := putString_ok (by decide) hs₁
  obtain ⟨ls₂, rfl⟩ := putString_ok (by decide) hs₂
  obtain ⟨ln₁, rfl⟩ := putString_ok (by decide) hn₁
  obtain ⟨ln₂, rfl⟩ := putString_ok (by decide) hn₂
  obtain ⟨lt₁, rfl⟩ := putString_ok (by decide) ht₁
  obtain ⟨lt₂, rfl⟩ := putString_ok (by decide) ht₂
  obtain ⟨ly₁, rfl⟩ := putString_ok (by decide) hy₁
  obtain ⟨ly₂, rfl⟩ := putString_ok (by decide) hy₂
  obtain ⟨lv₁, rfl⟩ := putString_ok (by decide) hv₁
  obtain ⟨lv₂, rfl⟩ := putString_ok (by decide) hv₂
  simp only [List.append_assoc] at e
  obtain ⟨x402Version, e⟩ := u32_cut e
  obtain ⟨scheme, e⟩ := string_cut (by omega) (by omega) e
  obtain ⟨network, e⟩ := string_cut (by omega) (by omega) e
  obtain ⟨package, e⟩ := bytes32_cut e
  obtain ⟨contract, e⟩ := bytes32_cut e
  obtain ⟨name, e⟩ := string_cut (by omega) (by omega) e
  obtain ⟨symbol, e⟩ := string_cut (by omega) (by omega) e
  obtain ⟨version, e⟩ := string_cut (by omega) (by omega) e
  obtain ⟨decimals, e⟩ := u8_cut e
  obtain ⟨payer, e⟩ := bytes32_cut e
  obtain ⟨payee, e⟩ := bytes32_cut e
  obtain ⟨value, e⟩ := unsigned_cut rfl e
  obtain ⟨url, e⟩ := bytes32_cut e
  obtain ⟨report, e⟩ := bytes32_cut e
  obtain ⟨requirements, e⟩ := bytes32_cut e
  obtain ⟨payload, e⟩ := bytes32_cut e
  obtain ⟨auth, e⟩ := bytes32_cut e
  obtain ⟨after, e⟩ := u64_cut e
  obtain ⟨before, e⟩ := u64_cut e
  refine ⟨?_, e⟩
  cases b; cases c
  simp_all

theorem OfficialX402SettlementV1.canonicalBytes_inj {b c : OfficialX402SettlementV1}
    {x : List UInt8} (hx : b.canonicalBytes = .ok x) (hy : c.canonicalBytes = .ok x) : b = c := by
  simp only [canonicalBytes, except_bind_ok, Except.ok.injEq, pure, Except.pure] at hx hy
  obtain ⟨-, -, f₁, hf₁, t₁, ht₁, rfl⟩ := hx
  obtain ⟨-, -, f₂, hf₂, t₂, ht₂, e⟩ := hy
  obtain ⟨lt₁, rfl⟩ := putString_ok (by decide) ht₁
  obtain ⟨lt₂, rfl⟩ := putString_ok (by decide) ht₂
  rw [← List.append_nil (putU32 c.settlementVersion),
    ← List.append_nil (putU32 b.settlementVersion)] at e
  simp only [List.append_assoc] at e
  obtain ⟨front, e⟩ := putPrefix_cut hf₂ hf₁ e
  obtain ⟨nonce, e⟩ := bytes32_cut e
  obtain ⟨target, e⟩ := string_cut lt₂ lt₁ e
  obtain ⟨version, -⟩ := u32_cut e
  cases b; cases c
  simp_all

end Concordia.Contract
