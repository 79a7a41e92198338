import AnonyMus.Lib.Bytes
import AnonyMus.Lib.Decimal
import AnonyMus.Lib.Ordered

/-!
# Rust core — safety numbers

`identity.rs`: two users compare a number that is computed from their identifiers
and public keys. What is hashed is a label and one block for each user, the
smaller block first. Within a block the identifier has no length of its own, and
nothing separates the blocks.

* `computeSafetyNumber`, `hashInput` — the function, and what it hashes;
* `block_injective` — a block tells its user;
* `computeSafetyNumber_comm` — both users see one number;
* `hashInput_identifies_iff` — what is hashed tells the two users apart from two
  others exactly if bytes cannot be moved from one block to the other.
-/

namespace AnonyMus.Rust

/-- A user as the function is given it. -/
structure User where
  id         : String
  signingPub : Bytes 32
  dhPub      : Bytes 32
deriving DecidableEq

def User.block (u : User) : List UInt8 :=
  u.id.toUTF8.toList ++ u.signingPub.1 ++ u.dhPub.1

def safetyNumberLabel : List UInt8 := "SafetyNumberV3".toUTF8.toList

/-- What is given to SHA-256. -/
def hashInput (a b : User) : List UInt8 :=
  let (first, second) := ordered a.block b.block
  safetyNumberLabel ++ first ++ second

/-- The eight 32-bit words of the digest, five digits of each. -/
def computeSafetyNumber (sha256 : List UInt8 → Bytes 32) (a b : User) : String :=
  let digest := (sha256 (hashInput a b)).1
  let numbers := (List.range 8).map fun i =>
    let offset := i * 4
    let val := (ofBe32 ((digest.drop offset).take 4)).toNat
    let num := val % 100000
    zfill 5 num
  " ".intercalate numbers

/-- Two pairs of users, whoever comes first. -/
def SamePair (a b c d : User) : Prop := (a = c ∧ b = d) ∨ (a = d ∧ b = c)

instance (a b c d : User) : Decidable (SamePair a b c d) :=
  inferInstanceAs (Decidable (_ ∨ _))

variable {a b c d : User}

/-! ## Blocks -/

/-- The keys have a fixed length, so the rest is the identifier. -/
theorem block_injective : Function.Injective User.block := by
  intro u v heq
  have hdhLength : u.dhPub.1.length = v.dhPub.1.length := u.dhPub.2.trans v.dhPub.2.symm
  have hsigningLength : u.signingPub.1.length = v.signingPub.1.length :=
    u.signingPub.2.trans v.signingPub.2.symm
  obtain ⟨hrest, hdh⟩ := List.append_inj' heq hdhLength
  obtain ⟨hid, hsigning⟩ := List.append_inj' hrest hsigningLength
  have hutf8 : u.id.toUTF8 = v.id.toUTF8 := by
    rw [← mk_toList u.id.toUTF8, hid, mk_toList]
  rcases u with ⟨id, signing, dh⟩
  rcases v with ⟨id', signing', dh'⟩
  obtain rfl : id = id' := String.toByteArray_inj.mp hutf8
  obtain rfl : signing = signing' := Subtype.ext hsigning
  obtain rfl : dh = dh' := Subtype.ext hdh
  rfl

theorem ordered_block_eq_iff :
    ordered a.block b.block = ordered c.block d.block ↔ SamePair a b c d := by
  rw [ordered_eq_iff]
  simp only [block_injective.eq_iff, SamePair]

/-! ## What is hashed -/

theorem hashInput_comm (a b : User) : hashInput a b = hashInput b a := by
  unfold hashInput
  rw [ordered_comm]

theorem computeSafetyNumber_comm (sha256 : List UInt8 → Bytes 32) (a b : User) :
    computeSafetyNumber sha256 a b = computeSafetyNumber sha256 b a := by
  unfold computeSafetyNumber
  rw [hashInput_comm]

/-- One input comes of two pairs of users that are the same, or whose blocks are cut
in another place. -/
theorem hashInput_eq_iff :
    hashInput a b = hashInput c d ↔
      SamePair a b c d ∨
        Resplit (ordered a.block b.block) (ordered c.block d.block) := by
  rw [← ordered_block_eq_iff, ← append_eq_iff]
  unfold hashInput
  dsimp only
  rw [List.append_assoc, List.append_assoc, List.append_cancel_left_eq]

/-- The blocks of a pair cannot be cut in another place and be those of the same
pair. -/
theorem not_resplit_of_samePair (hsame : SamePair a b c d) :
    ¬ Resplit (ordered a.block b.block) (ordered c.block d.block) :=
  fun hresplit => hresplit.ne (ordered_block_eq_iff.mpr hsame)

/-- The input identifies the pair exactly where no bytes can be moved from the end of
one block to the beginning of the other. -/
theorem hashInput_identifies_iff (a b c d : User) :
    (hashInput a b = hashInput c d ↔ SamePair a b c d) ↔
      ¬ Resplit (ordered a.block b.block) (ordered c.block d.block) := by
  rw [hashInput_eq_iff]
  constructor
  · intro hidentifies hresplit
    exact not_resplit_of_samePair (hidentifies.mp (.inr hresplit)) hresplit
  · intro hnone
    exact or_iff_left hnone

/-! ## Two pairs with one number -/

/-- The keys of the tests, and those that are the same bytes one further on. -/
def alice : User := ⟨"alice", Bytes.replicate 32 1, Bytes.replicate 32 2⟩
def bob : User := ⟨"bob", Bytes.replicate 32 3, Bytes.replicate 32 4⟩

def shiftedAlice : User where
  id         := "alice\x01"
  signingPub := ⟨List.replicate 31 1 ++ [2], rfl⟩
  dhPub      := ⟨List.replicate 31 2 ++ [98], rfl⟩

def shiftedBob : User := ⟨"ob", Bytes.replicate 32 3, Bytes.replicate 32 4⟩

/-- The `b` of `bob` is the last byte of another user's key: other users, and other
keys of the first, but the same bytes under the hash. -/
theorem hashInput_collides :
    hashInput alice bob = hashInput shiftedAlice shiftedBob ∧
      ¬ SamePair alice bob shiftedAlice shiftedBob := by
  decide +kernel

end AnonyMus.Rust
