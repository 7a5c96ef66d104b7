import ParticleSim.Checkpoint.Bytes
import Mathlib.Algebra.Group.Nat.Defs

/-!
# Checkpoint — Words and sections, read back

Every reader of words, sections and text accepts exactly what the corresponding writer puts out,
followed by anything: `read input = .ok a rest` says that `input` is the one spelling of `a` and
then `rest` (`ByteReader.u64_eq_ok`, `ByteReader.sized_eq_ok`, `ByteReader.text_eq_ok`).
-/

namespace ParticleSim

/-! ### Computations that can fail -/

section Results

variable {ε σ α β : Type}

/-- Two computations in a row succeed when the first does and the second does from there. -/
theorem bind_eq_ok {x : EStateM ε σ α} {f : α → EStateM ε σ β} {s s' : σ} {b : β} :
    (x >>= f) s = .ok b s' ↔ ∃ a s₁, x s = .ok a s₁ ∧ f a s₁ = .ok b s' := by
  constructor
  · intro h
    cases hx : x s with
    | ok a s₁ => exact ⟨a, s₁, rfl, by simpa [bind, EStateM.bind, hx] using h⟩
    | error e s₁ => simp [bind, EStateM.bind, hx] at h
  · rintro ⟨a, s₁, hx, hf⟩
    simp [bind, EStateM.bind, hx, hf]

theorem bind_of_ok {x : EStateM ε σ α} {s s₁ : σ} {a : α} (h : x s = .ok a s₁)
    (f : α → EStateM ε σ β) : (x >>= f) s = f a s₁ := by
  simp [bind, EStateM.bind, h]

theorem bind_of_error {x : EStateM ε σ α} {s s₁ : σ} {e : ε} (h : x s = .error e s₁)
    (f : α → EStateM ε σ β) : (x >>= f) s = .error e s₁ := by
  simp [bind, EStateM.bind, h]

theorem get_bind (f : σ → EStateM ε σ β) (s : σ) : (get >>= f) s = f s s := rfl

@[simp] theorem pure_eq_ok {s s' : σ} {a b : α} :
    (pure a : EStateM ε σ α) s = .ok b s' ↔ a = b ∧ s = s' := by
  simp [pure, EStateM.pure]

@[simp] theorem throw_ne_ok {s s' : σ} {e : ε} {b : α} :
    (throw e : EStateM ε σ α) s ≠ .ok b s' := by
  intro h
  cases h

theorem ofExcept_eq_ok {x : Except ε α} {s s' : σ} {a : α} :
    (MonadExcept.ofExcept x : EStateM ε σ α) s = .ok a s' ↔ x = .ok a ∧ s' = s := by
  cases x with
  | ok b => exact pure_eq_ok.trans (by simp [eq_comm])
  | error e => exact ⟨fun h => absurd h throw_ne_ok, fun h => nomatch h.1⟩

/-- A check, and what follows it. -/
theorem check_eq_ok {p : Prop} [Decidable p] {e : ε} {f : Unit → EStateM ε σ β} {s s' : σ} {b : β} :
    (if p then f () else throw e >>= f) s = .ok b s' ↔ p ∧ f () s = .ok b s' := by
  by_cases hp : p
  · simp [hp]
  · rw [if_neg hp]
    constructor
    · intro h
      obtain ⟨_, _, h', _⟩ := bind_eq_ok.mp h
      exact absurd h' throw_ne_ok
    · exact fun h => absurd h.1 hp

theorem map_eq_ok {x : EStateM ε σ α} {f : α → β} {s s' : σ} {b : β} :
    (f <$> x) s = .ok b s' ↔ ∃ a, x s = .ok a s' ∧ f a = b := by
  constructor
  · intro h
    cases hx : x s with
    | ok a s₁ =>
        simp only [Functor.map, EStateM.map, hx, EStateM.Result.ok.injEq] at h
        exact ⟨a, by rw [h.2], h.1⟩
    | error e s₁ => simp [Functor.map, EStateM.map, hx] at h
  · rintro ⟨a, hx, rfl⟩
    simp [Functor.map, EStateM.map, hx]

end Results

namespace Bytes

/-! ### Numbers -/

@[simp] theorem length_ofNat (width n : Nat) : (ofNat width n).length = width := by
  induction width generalizing n with
  | zero => rfl
  | succ width ih => simp [ofNat, ih]

theorem toNat_lt (bytes : Bytes) : toNat bytes < 256 ^ bytes.length := by
  induction bytes with
  | nil => simp [toNat]
  | cons b bs ih =>
      have hb : b.toNat < 256 := b.toNat_lt
      have hp : 256 ^ (bs.length + 1) = 256 * 256 ^ bs.length := Nat.pow_succ'
      simp only [toNat, List.length_cons, hp]
      omega

theorem toNat_ofNat (width n : Nat) : toNat (ofNat width n) = n % 256 ^ width := by
  induction width generalizing n with
  | zero => simp [ofNat, toNat, Nat.mod_one]
  | succ width ih =>
      have hb : (UInt8.ofNat n).toNat = n % 256 := by simp
      rw [ofNat, toNat, ih, hb, Nat.pow_succ', Nat.mod_mul]

theorem ofNat_toNat (bytes : Bytes) : ofNat bytes.length (toNat bytes) = bytes := by
  induction bytes with
  | nil => rfl
  | cons b bs ih =>
      have hb : b.toNat < 256 := b.toNat_lt
      have hq : (b.toNat + 256 * toNat bs) / 256 = toNat bs := by omega
      have hr : UInt8.ofNat (b.toNat + 256 * toNat bs) = b := by
        rw [← UInt8.toNat_inj]
        simp only [UInt8.toNat_ofNat']
        omega
      simp [ofNat, toNat, hq, hr, ih]

@[simp] theorem length_ofU32 (v : UInt32) : (ofU32 v).length = 4 := length_ofNat 4 _

@[simp] theorem length_ofU64 (v : UInt64) : (ofU64 v).length = 8 := length_ofNat 8 _

@[simp] theorem length_sized (bytes : Bytes) : (sized bytes).length = 4 + bytes.length := by
  simp [sized]

theorem ofNat_toNat_ofU32 (v : UInt32) : UInt32.ofNat (ofU32 v).toNat = v := by
  have h : v.toNat < 256 ^ 4 := v.toNat_lt
  rw [ofU32, toNat_ofNat, Nat.mod_eq_of_lt h, UInt32.ofNat_toNat]

theorem ofNat_toNat_ofU64 (v : UInt64) : UInt64.ofNat (ofU64 v).toNat = v := by
  have h : v.toNat < 256 ^ 8 := v.toNat_lt
  rw [ofU64, toNat_ofNat, Nat.mod_eq_of_lt h, UInt64.ofNat_toNat]

theorem ofU32_ofNat_toNat {bytes : Bytes} (h : bytes.length = 4) :
    ofU32 (.ofNat bytes.toNat) = bytes := by
  have hlt := toNat_lt bytes
  rw [h] at hlt
  rw [ofU32, UInt32.toNat_ofNat_of_lt' hlt, ← h, ofNat_toNat]

theorem ofU64_ofNat_toNat {bytes : Bytes} (h : bytes.length = 8) :
    ofU64 (.ofNat bytes.toNat) = bytes := by
  have hlt := toNat_lt bytes
  rw [h] at hlt
  rw [ofU64, UInt64.toNat_ofNat_of_lt' hlt, ← h, ofNat_toNat]

end Bytes

namespace ByteReader

/-! ### Readers of words -/

theorem exactly_eq_ok {n : Nat} {input taken rest : Bytes} :
    exactly n input = .ok taken rest ↔ taken.length = n ∧ input = taken ++ rest := by
  simp only [exactly, List.splitAt_eq]
  constructor
  · intro h
    split at h
    · next hn =>
      cases h
      exact ⟨hn, (List.take_append_drop n input).symm⟩
    · cases h
  · rintro ⟨rfl, rfl⟩
    simp

theorem u8_eq_ok {input rest : Bytes} {v : UInt8} : u8 input = .ok v rest ↔ input = v :: rest := by
  rw [u8, bind_eq_ok]
  constructor
  · rintro ⟨taken, rest', h, hv⟩
    obtain ⟨hl, rfl⟩ := exactly_eq_ok.mp h
    obtain ⟨rfl, rfl⟩ := pure_eq_ok.mp hv
    obtain ⟨b, rfl⟩ := List.length_eq_one_iff.mp hl
    simp [Bytes.toNat]
  · rintro rfl
    exact ⟨[v], rest, exactly_eq_ok.mpr ⟨rfl, rfl⟩, pure_eq_ok.mpr ⟨by simp [Bytes.toNat], rfl⟩⟩

theorem u32_eq_ok {input rest : Bytes} {v : UInt32} :
    u32 input = .ok v rest ↔ input = Bytes.ofU32 v ++ rest := by
  rw [u32, bind_eq_ok]
  constructor
  · rintro ⟨taken, rest', h, hv⟩
    obtain ⟨hl, rfl⟩ := exactly_eq_ok.mp h
    obtain ⟨rfl, rfl⟩ := pure_eq_ok.mp hv
    rw [Bytes.ofU32_ofNat_toNat hl]
  · rintro rfl
    exact ⟨_, rest, exactly_eq_ok.mpr ⟨Bytes.length_ofU32 v, rfl⟩,
      pure_eq_ok.mpr ⟨Bytes.ofNat_toNat_ofU32 v, rfl⟩⟩

theorem u64_eq_ok {input rest : Bytes} {v : UInt64} :
    u64 input = .ok v rest ↔ input = Bytes.ofU64 v ++ rest := by
  rw [u64, bind_eq_ok]
  constructor
  · rintro ⟨taken, rest', h, hv⟩
    obtain ⟨hl, rfl⟩ := exactly_eq_ok.mp h
    obtain ⟨rfl, rfl⟩ := pure_eq_ok.mp hv
    rw [Bytes.ofU64_ofNat_toNat hl]
  · rintro rfl
    exact ⟨_, rest, exactly_eq_ok.mpr ⟨Bytes.length_ofU64 v, rfl⟩,
      pure_eq_ok.mpr ⟨Bytes.ofNat_toNat_ofU64 v, rfl⟩⟩

/-! ### Readers of sections -/

/-- A section is read when its length fits the prefix. -/
theorem sized_eq_ok {input bytes rest : Bytes} :
    sized input = .ok bytes rest ↔
      bytes.length < UInt32.size ∧ input = Bytes.sized bytes ++ rest := by
  refine bind_eq_ok.trans ?_
  constructor
  · rintro ⟨length, input', h, hs⟩
    obtain rfl := u32_eq_ok.mp h
    simp only [List.splitAt_eq] at hs
    split at hs
    · next hl =>
      cases hs
      have hlen : UInt32.ofNat (input'.take length.toNat).length = length := by
        rw [hl, UInt32.ofNat_toNat]
      constructor
      · rw [hl]; exact length.toNat_lt
      · rw [Bytes.sized, hlen, List.append_assoc, List.take_append_drop]
    · cases hs
  · rintro ⟨hlt, rfl⟩
    refine ⟨.ofNat bytes.length, bytes ++ rest, u32_eq_ok.mpr (List.append_assoc ..), ?_⟩
    simp [List.splitAt_eq, UInt32.toNat_ofNat_of_lt' hlt]

theorem text_eq_ok {input rest : Bytes} {s : String} :
    text input = .ok s rest ↔
      (Text.encode s).length < UInt32.size ∧ input = Bytes.sized (Text.encode s) ++ rest := by
  rw [text, bind_eq_ok]
  constructor
  · rintro ⟨octets, rest', h, hd⟩
    obtain ⟨hlt, rfl⟩ := sized_eq_ok.mp h
    cases ht : Text.decode octets with
    | ok t =>
        rw [ht] at hd
        obtain ⟨rfl, rfl⟩ := pure_eq_ok.mp hd
        rw [Text.encode_eq_of_decode ht]
        exact ⟨hlt, rfl⟩
    | error fault =>
        rw [ht] at hd
        exact absurd hd throw_ne_ok
  · rintro ⟨hlt, rfl⟩
    refine ⟨Text.encode s, rest, sized_eq_ok.mpr ⟨hlt, rfl⟩, ?_⟩
    rw [Text.decode_encode]
    rfl

end ByteReader

end ParticleSim
