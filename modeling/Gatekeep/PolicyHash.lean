import Gatekeep.Prepared
import Gatekeep.Support.Postcard

/-!
# Gatekeep.PolicyHash

The content hash of a policy, `Policy::hash` in `evaluate.rs`: lowercase hex of the BLAKE3 digest of
the policy's postcard bytes. BLAKE3 is a parameter, and so is the encoding of outcomes, which is the
application's.

The bytes are told apart from whatever follows them, so they identify the policy
(`Policy.separates_postcard`). Two prepared policies with one hash are therefore the same policy, or
their bytes are a collision of BLAKE3 (`policyHash_identifies`).
-/

namespace Gatekeep

open Postcard

/-! ## The bytes of a policy -/

section Encoding

variable {ε O : Type}

/-- An identifier is written as its text. -/
def OwnedId.postcard {field : String} : Encoder ε (OwnedId field) := fun id => str id.value

def DenyShape.postcard : Encoder ε DenyShape
  | .forbidden => unitVariant 0
  | .hidden => unitVariant 1

mutual

def Condition.postcard : Condition → Except ε Bytes
  | .always => unitVariant 0
  | .never => unitVariant 1
  | .has fact => variant 2 fact.postcard
  | .not inner => variant 3 inner.postcard
  | .all conditions => variant 4 (both (nat conditions.length) (Condition.postcardEach conditions))
  | .any conditions => variant 5 (both (nat conditions.length) (Condition.postcardEach conditions))

def Condition.postcardEach : List Condition → Except ε Bytes
  | [] => .ok []
  | c :: cs => both c.postcard (Condition.postcardEach cs)

end

def Grant.postcard (outcome : Encoder ε O) : Encoder ε (Grant O) := fun g =>
  both (outcome g.outcome) <|
  both g.condition.postcard <|
  both (option OwnedId.postcard g.label) <|
  both g.denyShape.postcard <|
  both (seq OwnedId.postcard g.obligations) <|
  option OwnedId.postcard g.reason

mutual

def Policy.postcard (outcome : Encoder ε O) : Policy O → Except ε Bytes
  | .permit o => variant 0 (outcome o)
  | .deny => unitVariant 1
  | .grant g => variant 2 (g.postcard outcome)
  | .all policies => variant 3 (both (nat policies.length) (Policy.postcardEach outcome policies))
  | .any policies => variant 4 (both (nat policies.length) (Policy.postcardEach outcome policies))
  | .orElse primary fallback =>
    variant 5 (both (primary.postcard outcome) (fallback.postcard outcome))

def Policy.postcardEach (outcome : Encoder ε O) : List (Policy O) → Except ε Bytes
  | [] => .ok []
  | p :: ps => both (p.postcard outcome) (Policy.postcardEach outcome ps)

end

theorem Condition.postcardEach_eq (cs : List Condition) :
    (postcardEach cs : Except ε Bytes) = each postcard cs := by
  induction cs with
  | nil => rfl
  | cons c cs ih => rw [postcardEach, ih, each]

theorem Condition.postcard_all (cs : List Condition) :
    (postcard (.all cs) : Except ε Bytes) = variant 4 (seq postcard cs) := by
  rw [postcard, postcardEach_eq, seq]

theorem Condition.postcard_any (cs : List Condition) :
    (postcard (.any cs) : Except ε Bytes) = variant 5 (seq postcard cs) := by
  rw [postcard, postcardEach_eq, seq]

theorem Policy.postcardEach_eq (outcome : Encoder ε O) (ps : List (Policy O)) :
    postcardEach outcome ps = each (postcard outcome) ps := by
  induction ps with
  | nil => rfl
  | cons p ps ih => rw [postcardEach, ih, each]

theorem Policy.postcard_all (outcome : Encoder ε O) (ps : List (Policy O)) :
    postcard outcome (.all ps) = variant 3 (seq (postcard outcome) ps) := by
  rw [postcard, postcardEach_eq, seq]

theorem Policy.postcard_any (outcome : Encoder ε O) (ps : List (Policy O)) :
    postcard outcome (.any ps) = variant 4 (seq (postcard outcome) ps) := by
  rw [postcard, postcardEach_eq, seq]

/-! ## Every part is separated -/

theorem OwnedId.separates_postcard {field : String} (id : OwnedId field) :
    Separates (postcard : Encoder ε (OwnedId field)) id :=
  (separates_str id.value).comap fun _ _ => OwnedId.ext_value

theorem DenyShape.separates_postcard (shape : DenyShape) :
    Separates (postcard : Encoder ε DenyShape) shape := by
  intro shape' x y s t hx hy heq
  cases shape <;> cases shape'
  · exact ⟨rfl, (unitVariant_peel hx hy heq).2⟩
  · exact absurd (unitVariant_peel hx hy heq).1 (by decide)
  · exact absurd (unitVariant_peel hx hy heq).1 (by decide)
  · exact ⟨rfl, (unitVariant_peel hx hy heq).2⟩

theorem Condition.separates_postcard (c : Condition) :
    Separates (postcard : Encoder ε Condition) c := by
  induction c using Condition.ind with
  | always =>
    intro c' x y s t hx hy heq
    cases c' with
    | always => exact ⟨rfl, (unitVariant_peel hx hy heq).2⟩
    | _ => exact absurd (variant_peel hx hy heq).1 (by decide)
  | never =>
    intro c' x y s t hx hy heq
    cases c' with
    | never => exact ⟨rfl, (unitVariant_peel hx hy heq).2⟩
    | _ => exact absurd (variant_peel hx hy heq).1 (by decide)
  | has fact =>
    intro c' x y s t hx hy heq
    cases c' with
    | has fact' =>
      exact (variant_inj fact.separates_postcard hx hy heq).imp_left (congrArg Condition.has)
    | _ => exact absurd (variant_peel hx hy heq).1 (by decide)
  | not inner ih =>
    intro c' x y s t hx hy heq
    cases c' with
    | not inner' => exact (variant_inj ih hx hy heq).imp_left (congrArg Condition.not)
    | _ => exact absurd (variant_peel hx hy heq).1 (by decide)
  | all cs ih =>
    intro c' x y s t hx hy heq
    cases c' with
    | all cs' =>
      rw [postcard_all] at hx hy
      exact (variant_inj (separates_seq ih) hx hy heq).imp_left (congrArg Condition.all)
    | _ => exact absurd (variant_peel hx hy heq).1 (by decide)
  | any cs ih =>
    intro c' x y s t hx hy heq
    cases c' with
    | any cs' =>
      rw [postcard_any] at hx hy
      exact (variant_inj (separates_seq ih) hx hy heq).imp_left (congrArg Condition.any)
    | _ => exact absurd (variant_peel hx hy heq).1 (by decide)

section Outcome

variable {outcome : Encoder ε O} (houtcome : ∀ o, Separates outcome o)
include houtcome

theorem Grant.separates_postcard (g : Grant O) : Separates (postcard outcome) g := by
  intro g' x y s t hx hy heq
  obtain ⟨ho, x, y, hx, hy, heq⟩ := (houtcome g.outcome).peel hx hy heq
  obtain ⟨hc, x, y, hx, hy, heq⟩ := g.condition.separates_postcard.peel hx hy heq
  obtain ⟨hl, x, y, hx, hy, heq⟩ :=
    (separates_option OwnedId.separates_postcard g.label).peel hx hy heq
  obtain ⟨hd, x, y, hx, hy, heq⟩ := g.denyShape.separates_postcard.peel hx hy heq
  obtain ⟨hobs, x, y, hx, hy, heq⟩ :=
    (separates_seq fun id _ => OwnedId.separates_postcard id).peel hx hy heq
  obtain ⟨hr, hst⟩ := separates_option OwnedId.separates_postcard g.reason g'.reason x y s t hx hy heq
  refine ⟨?_, hst⟩
  cases g
  cases g'
  cases ho; cases hc; cases hl; cases hd; cases hobs; cases hr
  rfl

theorem Policy.separates_postcard (p : Policy O) : Separates (postcard outcome) p := by
  induction p using Policy.ind with
  | permit o =>
    intro q x y s t hx hy heq
    cases q with
    | permit o' => exact (variant_inj (houtcome o) hx hy heq).imp_left (congrArg Policy.permit)
    | _ => exact absurd (variant_peel hx hy heq).1 (by decide)
  | deny =>
    intro q x y s t hx hy heq
    cases q with
    | deny => exact ⟨rfl, (unitVariant_peel hx hy heq).2⟩
    | _ => exact absurd (variant_peel hx hy heq).1 (by decide)
  | grant g =>
    intro q x y s t hx hy heq
    cases q with
    | grant g' =>
      exact (variant_inj (g.separates_postcard houtcome) hx hy heq).imp_left (congrArg Policy.grant)
    | _ => exact absurd (variant_peel hx hy heq).1 (by decide)
  | all ps ih =>
    intro q x y s t hx hy heq
    cases q with
    | all ps' =>
      rw [postcard_all] at hx hy
      exact (variant_inj (separates_seq ih) hx hy heq).imp_left (congrArg Policy.all)
    | _ => exact absurd (variant_peel hx hy heq).1 (by decide)
  | any ps ih =>
    intro q x y s t hx hy heq
    cases q with
    | any ps' =>
      rw [postcard_any] at hx hy
      exact (variant_inj (separates_seq ih) hx hy heq).imp_left (congrArg Policy.any)
    | _ => exact absurd (variant_peel hx hy heq).1 (by decide)
  | orElse primary fallback ihp ihf =>
    intro q x y s t hx hy heq
    cases q with
    | orElse primary' fallback' =>
      obtain ⟨-, x', y', hx', hy', heq⟩ := variant_peel hx hy heq
      obtain ⟨rfl, x', y', hx', hy', heq⟩ := ihp.peel hx' hy' heq
      obtain ⟨rfl, hst⟩ := ihf fallback' x' y' s t hx' hy' heq
      exact ⟨rfl, hst⟩
    | _ => exact absurd (variant_peel hx hy heq).1 (by decide)

end Outcome

end Encoding

/-! ## The hash -/

def hexDigit (n : Fin 16) : Char :=
  #v['0', '1', '2', '3', '4', '5', '6', '7', '8', '9', 'a', 'b', 'c', 'd', 'e', 'f'].get n

def hexByte (b : UInt8) : List Char :=
  [hexDigit ⟨b.toNat / 16, by have := b.toNat_lt; omega⟩, hexDigit ⟨b.toNat % 16, by omega⟩]

/-- `Hash::to_hex`. -/
def toHex (digest : Vector UInt8 32) : String := String.ofList (digest.toList.flatMap hexByte)

theorem hexDigit_inj : Function.Injective hexDigit := by decide

theorem hexDigit_not_white : ∀ n, isWhiteSpace (hexDigit n) = false := by decide

theorem hexByte_append_inj {b b' : UInt8} {l l' : List Char}
    (h : hexByte b ++ l = hexByte b' ++ l') : b = b' ∧ l = l' := by
  simp only [hexByte, List.cons_append, List.nil_append, List.cons.injEq] at h
  obtain ⟨hdiv, hmod, hl⟩ := h
  have hdiv := Fin.mk.inj (hexDigit_inj hdiv)
  have hmod := Fin.mk.inj (hexDigit_inj hmod)
  exact ⟨UInt8.toNat_inj.mp (by omega), hl⟩

theorem flatMap_hexByte_inj {l l' : List UInt8} (h : l.flatMap hexByte = l'.flatMap hexByte) :
    l = l' := by
  induction l generalizing l' with
  | nil =>
    cases l' with
    | nil => rfl
    | cons b l' => cases h
  | cons b l ih =>
    cases l' with
    | nil => cases h
    | cons b' l' =>
      obtain ⟨rfl, hl⟩ := hexByte_append_inj h
      rw [ih hl]

theorem toHex_inj {d d' : Vector UInt8 32} (h : toHex d = toHex d') : d = d' :=
  Vector.toList_inj.mp (flatMap_hexByte_inj (String.ofList_inj.mp h))

theorem toHex_nonblank (digest : Vector UInt8 32) : isBlank (toHex digest) = false := by
  have hlength : digest.toList.length = 32 := digest.length_toList
  cases hl : digest.toList with
  | nil =>
    rw [hl] at hlength
    cases hlength
  | cons b l =>
    rw [isBlank, toHex, hl, String.toList_ofList, List.flatMap_cons, hexByte, List.cons_append,
      List.all_cons, hexDigit_not_white, Bool.false_and]

section Hash

variable {O : Type}

def Policy.hash (blake3 : Bytes → Vector UInt8 32) (outcome : Encoder PostcardError O)
    (p : Policy O) : Except PostcardError PolicyHash := do
  let bytes ← p.postcard outcome
  return ⟨toHex (blake3 bytes), toHex_nonblank _⟩

theorem Policy.hash_eq_ok {blake3 : Bytes → Vector UInt8 32} {outcome : Encoder PostcardError O}
    {p : Policy O} {hash : PolicyHash} (h : p.hash blake3 outcome = .ok hash) :
    ∃ bytes, p.postcard outcome = .ok bytes ∧ hash.value = toHex (blake3 bytes) := by
  obtain ⟨bytes, hbytes, ⟨⟩⟩ := Result.bind_eq_ok.mp h
  exact ⟨bytes, hbytes, rfl⟩

/-- A policy anchor identifies the policy's content. -/
theorem policyHash_identifies (outcome : Encoder PostcardError O) (hinj : Injective outcome)
    (hfree : PrefixFree outcome) :
    Injective (Policy.postcard outcome) ∧ PrefixFree (Policy.postcard outcome) ∧
    ∀ (blake3 : Bytes → Vector UInt8 32) (id id' : PolicyId) (p q : Policy O)
      (prepared prepared' : PreparedPolicy O),
      PreparedPolicy.new (Policy.hash blake3 outcome) id p = .ok prepared →
      PreparedPolicy.new (Policy.hash blake3 outcome) id' q = .ok prepared' →
      prepared.anchor.policyHash = prepared'.anchor.policyHash →
      prepared.policy = prepared'.policy ∨
        ∃ x y, prepared.policy.postcard outcome = .ok x ∧
          prepared'.policy.postcard outcome = .ok y ∧ x ≠ y ∧ blake3 x = blake3 y := by
  have hpolicy := separates_iff.mp (Policy.separates_postcard (separates_iff.mpr ⟨hinj, hfree⟩))
  refine ⟨hpolicy.1, hpolicy.2, ?_⟩
  intro blake3 id id' p q prepared prepared' hp hq hhash
  obtain ⟨rfl, hp⟩ := PreparedPolicy.new_eq_ok hp
  obtain ⟨rfl, hq⟩ := PreparedPolicy.new_eq_ok hq
  obtain ⟨x, hx, hhex⟩ := Policy.hash_eq_ok hp
  obtain ⟨y, hy, hhex'⟩ := Policy.hash_eq_ok hq
  have hdigest : blake3 x = blake3 y := toHex_inj (by rw [← hhex, ← hhex', hhash])
  by_cases hxy : x = y
  · subst hxy
    exact .inl (hpolicy.1 _ _ x hx hy)
  · exact .inr ⟨x, y, hx, hy, hxy, hdigest⟩

end Hash

namespace Sample

/-- `()` is written as nothing. -/
def unitOutcome : Encoder PostcardError Unit := fun _ => .ok []

end Sample

open Sample in
theorem policyHash_identifies_unit :
    Injective unitOutcome ∧ PrefixFree unitOutcome ∧
      (grantIf (.has owner) []).postcard unitOutcome ≠
        (grantIf .always []).postcard unitOutcome := by
  have hinj : Injective unitOutcome := fun _ _ _ _ _ => rfl
  have hfree : PrefixFree unitOutcome := by
    rintro _ _ _ _ ⟨⟩ ⟨⟩ -
    rfl
  refine ⟨hinj, hfree, fun h => ?_⟩
  obtain ⟨x, hx⟩ : ∃ x, (grantIf (.has owner) []).postcard unitOutcome = .ok x := ⟨_, rfl⟩
  cases (policyHash_identifies unitOutcome hinj hfree).1 _ _ x hx (h ▸ hx)

end Gatekeep
