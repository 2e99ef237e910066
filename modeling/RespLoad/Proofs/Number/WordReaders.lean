import Mathlib.Data.Nat.Digits.Defs
import RespLoad.Proofs.Number.Numeral
import RespLoad.Proofs.Settings.InPlace

/-!
# Numbers read on machine words

The readers of numbers once more, on signed words of 32 bits and unsigned words of 64 bits, and with the
place that they fill. Such a reader stops where its type has no word for a result, the results on the way
included. That never happens, however many digits there are: the guard in front of each digit leaves room
for it. So the readers accept exactly the digits whose value keeps to the limit, with zeros in front or
not, and a place that is not filled holds what it held.
-/
namespace RespLoad.Decimal

/-- One or more digits, and their value in base ten. The last digit counts once. -/
structure Digits (s : Bytes) (n : Nat) : Prop where
  nonempty : s ≠ []
  digit : ∀ b ∈ s, Bytes.isDigit b = true
  denotes : Nat.ofDigits 10 (s.reverse.map digitValue) = n

section Acceptance

variable {s : Bytes} {limit n : Nat}

theorem value_eq_ofDigits (s : Bytes) : value s = Nat.ofDigits 10 (s.reverse.map digitValue) := by
  induction s using List.reverseRecOn with
  | nil => rfl
  | append_singleton front b ih =>
    rw [value_append_singleton, ih, List.reverse_append, List.reverse_singleton,
      List.singleton_append, List.map_cons, Nat.ofDigits_cons, Nat.mul_comm, Nat.add_comm]

theorem digits_iff : Digits s n ↔ s ≠ [] ∧ (∀ b ∈ s, Bytes.isDigit b = true) ∧ value s = n := by
  rw [value_eq_ofDigits]
  exact ⟨fun h => ⟨h.nonempty, h.digit, h.denotes⟩, fun ⟨hne, hd, hv⟩ => ⟨hne, hd, hv⟩⟩

theorem read?_iff_digits (hl : 9 ≤ limit) :
    read? limit s = some n ↔ Digits s n ∧ n ≤ limit := by
  rw [read?_eq_some_iff hl, digits_iff, and_assoc, and_assoc]

theorem readSigned?_iff_digits {z : Int} (hl : 9 ≤ limit) :
    readSigned? limit s = some z ↔ ∃ n ≤ limit,
      (Digits s n ∧ z = n) ∨ ∃ rest, s = minus :: rest ∧ Digits rest n ∧ z = -n := by
  rw [readSigned?_eq_some_iff hl]
  constructor
  · rintro ⟨hnumeral, hle⟩
    cases hnumeral with
    | plain hne hd => exact ⟨value s, hle, .inl ⟨digits_iff.mpr ⟨hne, hd, rfl⟩, rfl⟩⟩
    | @signed rest hne hd =>
      rw [Int.natAbs_neg] at hle
      exact ⟨value rest, hle, .inr ⟨rest, rfl, digits_iff.mpr ⟨hne, hd, rfl⟩, rfl⟩⟩
  · rintro ⟨n, hle, ⟨hdigits, rfl⟩ | ⟨rest, rfl, hdigits, rfl⟩⟩
    · obtain ⟨hne, hd, rfl⟩ := digits_iff.mp hdigits
      exact ⟨.plain hne hd, hle⟩
    · obtain ⟨hne, hd, rfl⟩ := digits_iff.mp hdigits
      exact ⟨.signed hne hd, by rwa [Int.natAbs_neg]⟩

theorem readBetween?_iff_digits {lo hi : Nat} (hhi : hi ≤ maxWord64) :
    readBetween? lo hi s = some n ↔ Digits s n ∧ lo ≤ n ∧ n ≤ hi := by
  rw [readBetween?, Option.filter_eq_some_iff, read?_iff_digits (by decide), Bool.and_eq_true,
    decide_eq_true_eq, decide_eq_true_eq, and_assoc]
  constructor
  · rintro ⟨hdigits, -, hbounds⟩
    exact ⟨hdigits, hbounds⟩
  · rintro ⟨hdigits, hbounds⟩
    exact ⟨hdigits, hbounds.2.trans hhi, hbounds⟩

/-- The bounds one after the other, as the reader on words holds the number against them. -/
theorem map_readBetween? {lo hi : Int} (hlo : 0 ≤ lo) (hhi : 0 ≤ hi) (s : Bytes) :
    (readBetween? lo.toNat hi.toNat s).map Nat.cast =
      ((read? maxWord64 s).map Nat.cast).bind fun z : Int =>
        if z < lo then none else if hi < z then none else some z := by
  cases hread : read? maxWord64 s with
  | none =>
    rw [readBetween?, hread]
    rfl
  | some n =>
    have hbelow : n < lo.toNat ↔ (n : Int) < lo := by omega
    have habove : hi.toNat < n ↔ hi < (n : Int) := by omega
    rw [InPlace.readBetween?_of_read? hread, Option.map_some, Option.bind_some, ite_or]
    simp only [hbelow, habove]
    split
    · rfl
    · split <;> rfl

end Acceptance

/-- A machine type of integers, which has a word for each integer between two bounds. The digits are among
them. -/
structure WordType (W : Type) where
  least : Int
  greatest : Nat
  toInt : W → Int
  ofInt : Int → W
  least_le : least ≤ 0
  le_greatest : 9 ≤ greatest
  toInt_ofInt : ∀ z, least ≤ z → z ≤ greatest → toInt (ofInt z) = z

/-- Why a reader on words stops: it refuses what it reads, or there is no word for a result. -/
inductive Stop where
  | refused
  | overflow
  deriving Repr, DecidableEq

namespace WordType

/-- The signed words of 32 bits. -/
def int32 : WordType Int32 where
  least := -0x80000000
  greatest := maxInt32
  toInt := Int32.toInt
  ofInt := Int32.ofInt
  least_le := by decide
  le_greatest := by decide
  toInt_ofInt := fun z hle hge => Int32.toInt_ofInt_of_le hle (Int.lt_add_one_of_le hge)

/-- The unsigned words of 64 bits. -/
def uint64 : WordType UInt64 where
  least := 0
  greatest := maxWord64
  toInt := fun word => word.toNat
  ofInt := fun z => UInt64.ofNat z.toNat
  least_le := Int.le_refl 0
  le_greatest := by decide
  toInt_ofInt := fun z hle hge => by
    have hlt : z.toNat < UInt64.size := by
      unfold maxWord64 at hge
      unfold UInt64.size
      omega
    rw [UInt64.toNat_ofNat_of_lt' hlt, Int.toNat_of_nonneg hle]

section Loop

variable {W σ : Type} (type : WordType W)

/-- The word for a result. -/
def hold (z : Int) : EStateM Stop σ W :=
  if type.least ≤ z ∧ z ≤ type.greatest then pure (type.ofInt z) else throw .overflow

/-- The greatest value that a digit may still be put behind. -/
def roomBefore (digit : W) : EStateM Stop σ W := do
  let rest ← type.hold (type.greatest - type.toInt digit)
  type.hold ((type.toInt rest).tdiv 10)

/-- A value with a digit put behind it. -/
def withDigit (value digit : W) : EStateM Stop σ W := do
  let tens ← type.hold (type.toInt value * 10)
  type.hold (type.toInt tens + type.toInt digit)

/-- One turn of the loop, which takes one more digit into the value. -/
def extend (value : W) (b : UInt8) : EStateM Stop σ W :=
  if Bytes.isDigit b then do
    let digit ← type.hold (b.toNat - 48)
    let room ← type.roomBefore digit
    if type.toInt room < type.toInt value then throw .refused else type.withDigit value digit
  else throw .refused

/-- Reads one or more digits. -/
def read (s : Bytes) : EStateM Stop σ W :=
  if s.isEmpty then throw .refused else s.foldlM type.extend (type.ofInt 0)

/-- The run ends in the word of what is read, or refuses. Its state stays. -/
def Gives (run : EStateM Stop σ W) : Option Int → Prop
  | some z => ∃ word, type.toInt word = z ∧ run = pure word
  | none => run = throw .refused

theorem gives_hold {z : Int} (hle : type.least ≤ z) (hge : z ≤ type.greatest) :
    type.Gives (type.hold z : EStateM Stop σ W) (some z) :=
  ⟨type.ofInt z, type.toInt_ofInt z hle hge, if_pos ⟨hle, hge⟩⟩

variable {type} {value digit : W} {n d : Nat}

/-- There is a word for each natural number up to the greatest one. -/
theorem exists_hold {z : Int} (hz : z = n) (hn : n ≤ type.greatest) :
    ∃ word, type.toInt word = n ∧ (type.hold z : EStateM Stop σ W) = pure word := by
  subst hz
  exact type.gives_hold (type.least_le.trans n.cast_nonneg) (Int.ofNat_le.mpr hn)

theorem exists_roomBefore (hdigit : type.toInt digit = d) (hd : d ≤ type.greatest) :
    ∃ room, type.toInt room = ((type.greatest - d) / 10 : Nat) ∧
      (type.roomBefore digit : EStateM Stop σ W) = pure room := by
  have hsub : (type.greatest : Int) - type.toInt digit = (type.greatest - d : Nat) := by
    rw [hdigit, Int.ofNat_sub hd]
  obtain ⟨rest, hrest, hheld⟩ := exists_hold hsub (Nat.sub_le _ _)
  have hdiv : (type.toInt rest).tdiv 10 = ((type.greatest - d) / 10 : Nat) := by
    rw [hrest]
    exact (Int.ofNat_tdiv _ 10).symm
  rw [roomBefore, hheld, pure_bind]
  exact exists_hold hdiv ((Nat.div_le_self _ 10).trans (Nat.sub_le _ _))

theorem exists_withDigit (hvalue : type.toInt value = n) (hdigit : type.toInt digit = d)
    (hfits : n * 10 + d ≤ type.greatest) :
    ∃ word, type.toInt word = (n * 10 + d : Nat) ∧
      (type.withDigit value digit : EStateM Stop σ W) = pure word := by
  have hmul : type.toInt value * 10 = (n * 10 : Nat) := by
    rw [hvalue, Int.natCast_mul]
    rfl
  obtain ⟨tens, htens, hheld⟩ := exists_hold hmul ((Nat.le_add_right _ d).trans hfits)
  have hadd : type.toInt tens + type.toInt digit = (n * 10 + d : Nat) := by
    rw [htens, hdigit, Int.natCast_add]
  rw [withDigit, hheld, pure_bind]
  exact exists_hold hadd hfits

/-- Without the guard in front of it a turn may well leave the type. -/
example : (int32.withDigit 214748364 8 : EStateM Stop Unit Int32) () = .error .overflow () := rfl

/-- A turn on words refuses what the turn on natural numbers refuses, and has the same value otherwise. -/
theorem extend_gives (hvalue : type.toInt value = n) (b : UInt8) :
    type.Gives (type.extend value b : EStateM Stop σ W)
      ((extend? type.greatest n b).map Nat.cast) := by
  rw [extend, extend?]
  by_cases hb : Bytes.isDigit b = true
  · have hd := (digitValue_le hb).trans type.le_greatest
    have hoctet : (b.toNat : Int) - 48 = digitValue b := by
      rw [toNat_of_isDigit hb]
      omega
    obtain ⟨digit, hdigit, hheld⟩ := exists_hold hoctet hd
    obtain ⟨room, hroom, hbefore⟩ := exists_roomBefore hdigit hd
    rw [if_pos hb, if_pos hb, hheld, pure_bind, hbefore, pure_bind, hroom, hvalue]
    by_cases hguard : (type.greatest - digitValue b) / 10 < n
    · rw [if_pos hguard, if_pos (Int.ofNat_lt.mpr hguard)]
      rfl
    · rw [if_neg hguard, if_neg (mt Int.ofNat_lt.mp hguard)]
      exact exists_withDigit hvalue hdigit ((guard_iff hd).mp hguard)
  · rw [if_neg hb, if_neg hb]
    rfl

/-- The loops on words and on natural numbers go on in step, from equal values and however many digits
there are. -/
theorem foldlM_extend_gives (hvalue : type.toInt value = n) (s : Bytes) :
    type.Gives (s.foldlM type.extend value : EStateM Stop σ W)
      ((s.foldlM (extend? type.greatest) n).map Nat.cast) := by
  induction s generalizing value n with
  | nil => exact ⟨value, hvalue, rfl⟩
  | cons b rest ih =>
    have hturn := extend_gives (σ := σ) hvalue b
    rw [List.foldlM_cons, List.foldlM_cons]
    cases hread : extend? type.greatest n b with
    | none =>
      rw [hread] at hturn
      have hstop : (type.extend value b : EStateM Stop σ W) = throw .refused := hturn
      rw [hstop]
      rfl
    | some m =>
      rw [hread] at hturn
      obtain ⟨word, hword, hrun⟩ := hturn
      rw [hrun, pure_bind]
      exact ih hword

theorem read_gives (type : WordType W) (s : Bytes) :
    type.Gives (type.read s : EStateM Stop σ W) ((read? type.greatest s).map Nat.cast) := by
  rw [read, read?]
  by_cases hempty : s.isEmpty = true
  · rw [if_pos hempty, if_pos hempty]
    rfl
  · rw [if_neg hempty, if_neg hempty]
    exact foldlM_extend_gives (type.toInt_ofInt 0 type.least_le type.greatest.cast_nonneg) s

end Loop

section Places

variable {W : Type} {type : WordType W}

/-- The reader puts what is read into its place as a word, whatever the place holds. If nothing is read, it
refuses, and the place holds what it held. In no case does it stop for a result without a word. -/
structure Fills (type : WordType W) (reader : EStateM Stop W Unit) (read : Option Int) : Prop where
  fills : ∀ z, read = some z → ∃ word, type.toInt word = z ∧ ∀ place, reader place = .ok () word
  refuses : read = none → ∀ place, reader place = .error .refused place

theorem fills_set (word : W) : type.Fills (set word) (some (type.toInt word)) where
  fills := fun _ hz => ⟨word, Option.some.inj hz, fun _ => rfl⟩
  refuses := nofun

theorem fills_refused : type.Fills (throw .refused) none where
  fills := nofun
  refuses := fun _ _ => rfl

/-- A reader that goes on with what a run gives. -/
theorem Gives.bind {V : Type} {other : WordType V} {run : EStateM Stop W V}
    {more : V → EStateM Stop W Unit} {read : Option Int} {readMore : Int → Option Int}
    (h : other.Gives run read)
    (hmore : ∀ word, read = some (other.toInt word) →
      type.Fills (more word) (readMore (other.toInt word))) :
    type.Fills (run >>= more) (read.bind readMore) := by
  cases read with
  | none =>
    have hrun : run = throw .refused := h
    rw [hrun]
    exact fills_refused
  | some z =>
    obtain ⟨word, rfl, hrun⟩ := h
    rw [hrun, pure_bind]
    exact hmore word rfl

theorem Gives.fills {run : EStateM Stop W W} {read : Option Int} (h : type.Gives run read) :
    type.Fills (do set (← run)) read := by
  have hset : type.Fills (run >>= set) (read.bind some) := h.bind fun word _ => fills_set word
  rwa [Option.bind_fun_some] at hset

theorem Fills.apart_gives {σ : Type} {reader : EStateM Stop W Unit} {read : Option Int}
    (h : type.Fills reader read) (place : W) :
    type.Gives (InPlace.apart reader place : EStateM Stop σ W) read := by
  cases read with
  | none =>
    funext state
    rw [InPlace.apart, h.refuses rfl place]
    rfl
  | some z =>
    obtain ⟨word, hword, hreader⟩ := h.fills z rfl
    refine ⟨word, hword, ?_⟩
    funext state
    rw [InPlace.apart, hreader place]
    rfl

end Places

end WordType

section Readers

open WordType

/-- Reads digits. -/
def readWord (s : Bytes) : EStateM Stop UInt64 Unit := do
  set (← uint64.read s)

/-- Reads digits after an optional minus sign. -/
def readSignedWord : Bytes → EStateM Stop Int32 Unit
  | [] => throw .refused
  | b :: rest =>
    if b = minus then do
      let value ← int32.read rest
      set (← int32.hold (-int32.toInt value))
    else do
      set (← int32.read (b :: rest))

/-- Reads digits whose value lies between two bounds, into a word of 64 bits first. -/
def readWordBetween (lo hi : Int32) (s : Bytes) : EStateM Stop Int32 Unit := do
  let value ← InPlace.apart (readWord s) 0
  let least ← uint64.hold (int32.toInt lo)
  if uint64.toInt value < uint64.toInt least then throw .refused
  else do
    let greatest ← uint64.hold (int32.toInt hi)
    if uint64.toInt greatest < uint64.toInt value then throw .refused
    else do set (← int32.hold (uint64.toInt value))

theorem readWord_fills (s : Bytes) :
    uint64.Fills (readWord s) ((read? maxWord64 s).map Nat.cast) :=
  (uint64.read_gives s).fills

theorem readSignedWord_fills (s : Bytes) :
    int32.Fills (readSignedWord s) (readSigned? maxInt32 s) := by
  cases s with
  | nil => exact fills_refused
  | cons b rest =>
    by_cases hb : b = minus
    · subst hb
      have hneg : readSigned? maxInt32 (minus :: rest) =
          ((read? maxInt32 rest).map Nat.cast).bind fun z : Int => some (-z) := by
        rw [readSigned?_minus]
        cases read? maxInt32 rest <;> rfl
      rw [readSignedWord, if_pos rfl, hneg]
      refine (int32.read_gives rest).bind fun word hword => Gives.fills ?_
      obtain ⟨n, hread, hn⟩ := Option.map_eq_some_iff.mp hword
      have hle : n ≤ maxInt32 := ((read?_iff_digits (by decide)).mp hread).2
      have hleast : int32.least ≤ -(maxInt32 : Int) := by decide
      rw [← hn]
      exact int32.gives_hold (by omega) (by omega)
    · rw [readSignedWord, if_neg hb, readSigned?_of_ne hb]
      exact (int32.read_gives (b :: rest)).fills

theorem readWordBetween_fills {lo hi : Int32} (hlo : 0 ≤ lo) (hhi : lo ≤ hi) (s : Bytes) :
    int32.Fills (readWordBetween lo hi s)
      ((readBetween? lo.toInt.toNat hi.toInt.toNat s).map Nat.cast) := by
  have hlo' : 0 ≤ int32.toInt lo := Int32.le_iff_toInt_le.mp hlo
  have hhi' : int32.toInt lo ≤ int32.toInt hi := Int32.le_iff_toInt_le.mp hhi
  have hmax : int32.toInt hi ≤ int32.greatest := hi.toInt_le
  have hwide : (int32.greatest : Int) ≤ uint64.greatest := by decide
  obtain ⟨least, hleast, hholdLeast⟩ := uint64.gives_hold hlo' (hhi'.trans (hmax.trans hwide))
  obtain ⟨greatest, hgreatest, hholdGreatest⟩ :=
    uint64.gives_hold (hlo'.trans hhi') (hmax.trans hwide)
  rw [readWordBetween]
  show int32.Fills _ ((readBetween? (int32.toInt lo).toNat (int32.toInt hi).toNat s).map Nat.cast)
  rw [map_readBetween? hlo' (hlo'.trans hhi')]
  refine ((readWord_fills s).apart_gives 0).bind fun word _ => ?_
  rw [hholdLeast, pure_bind, hleast]
  by_cases hbelow : uint64.toInt word < int32.toInt lo
  · rw [if_pos hbelow, if_pos hbelow]
    exact fills_refused
  · rw [if_neg hbelow, if_neg hbelow, hholdGreatest, pure_bind, hgreatest]
    by_cases habove : int32.toInt hi < uint64.toInt word
    · rw [if_pos habove, if_pos habove]
      exact fills_refused
    · -- Between the bounds, so the word of 64 bits has one of 32 bits to go with it.
      have hneg := int32.least_le
      rw [if_neg habove, if_neg habove]
      exact Gives.fills (int32.gives_hold (by omega) (by omega))

/-- Each reader accepts exactly the digits whose value is within its limits, the signed one also behind a
minus sign, and yields the number. The readers on words do the same: the place is filled with the word of
the number, or it stays as it was, and every result on the way has a word. -/
theorem readers_exact (s : Bytes) :
    ((∀ z : Int, readSigned? maxInt32 s = some z ↔ ∃ n ≤ maxInt32,
        (Digits s n ∧ z = n) ∨ ∃ rest, s = minus :: rest ∧ Digits rest n ∧ z = -n) ∧
      int32.Fills (readSignedWord s) (readSigned? maxInt32 s)) ∧
    ((∀ n, read? maxWord64 s = some n ↔ Digits s n ∧ n ≤ maxWord64) ∧
      uint64.Fills (readWord s) ((read? maxWord64 s).map Nat.cast)) ∧
    ∀ lo hi : Int32, 0 ≤ lo → lo ≤ hi →
      (∀ n : Nat, readBetween? lo.toInt.toNat hi.toInt.toNat s = some n ↔
        Digits s n ∧ lo.toInt ≤ n ∧ n ≤ hi.toInt) ∧
      int32.Fills (readWordBetween lo hi s)
        ((readBetween? lo.toInt.toNat hi.toInt.toNat s).map Nat.cast) := by
  refine ⟨⟨fun z => readSigned?_iff_digits (by decide), readSignedWord_fills s⟩,
    ⟨fun n => read?_iff_digits (by decide), readWord_fills s⟩,
    fun lo hi hlo hhi => ⟨fun n => ?_, readWordBetween_fills hlo hhi s⟩⟩
  have hlo' : 0 ≤ lo.toInt := Int32.le_iff_toInt_le.mp hlo
  have hhi' : lo.toInt ≤ hi.toInt := Int32.le_iff_toInt_le.mp hhi
  have hmax : hi.toInt ≤ maxInt32 := hi.toInt_le
  have hwide : maxInt32 ≤ maxWord64 := by decide
  have hlower : lo.toInt.toNat ≤ n ↔ lo.toInt ≤ n := by omega
  have hupper : n ≤ hi.toInt.toNat ↔ (n : Int) ≤ hi.toInt := by omega
  rw [readBetween?_iff_digits (by omega), hlower, hupper]

/-- The greatest value of each reader with a zero in front, and the next one above it. -/
theorem readers_exact_at_limits :
    let least := utf8 "-02147483647"
    let greatest := utf8 "018446744073709551615"
    let port := utf8 "065535"
    (∃ word : Int32, word.toInt = -2147483647 ∧ ∀ place, readSignedWord least place = .ok () word) ∧
      (∀ place, readSignedWord (utf8 "-2147483648") place = .error .refused place) ∧
      (∃ word : UInt64, uint64.toInt word = 18446744073709551615 ∧
        ∀ place, readWord greatest place = .ok () word) ∧
      (∀ place, readWord (utf8 "18446744073709551616") place = .error .refused place) ∧
      (0 : Int32) ≤ 1 ∧ (1 : Int32) ≤ 65535 ∧ Digits port 65535 ∧
      (∃ word : Int32, word.toInt = 65535 ∧ ∀ place, readWordBetween 1 65535 port place = .ok () word) ∧
      ∀ place, readWordBetween 1 65535 (utf8 "65536") place = .error .refused place := by
  intro least greatest port
  have hlo : (0 : Int32) ≤ 1 := by decide
  have hhi : (1 : Int32) ≤ 65535 := by decide
  obtain ⟨⟨-, hleast⟩, -, -⟩ := readers_exact least
  obtain ⟨⟨-, hbelow⟩, -, -⟩ := readers_exact (utf8 "-2147483648")
  obtain ⟨-, ⟨-, hgreatest⟩, -⟩ := readers_exact greatest
  obtain ⟨-, ⟨-, habove⟩, -⟩ := readers_exact (utf8 "18446744073709551616")
  obtain ⟨haccepts, hport⟩ := (readers_exact port).2.2 1 65535 hlo hhi
  obtain ⟨-, hwide⟩ := (readers_exact (utf8 "65536")).2.2 1 65535 hlo hhi
  exact ⟨hleast.fills _ (by decide), hbelow.refuses (by decide), hgreatest.fills _ (by decide),
    habove.refuses (by decide), hlo, hhi, ((haccepts 65535).mp (by decide)).1,
    hport.fills _ (by decide), hwide.refuses (by decide)⟩

end Readers

end RespLoad.Decimal
