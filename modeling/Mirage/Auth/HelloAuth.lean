import Mirage.Lib.Trace
import Mirage.Lib.Word

/-!
Session tokens and the replay cache of crypto/hello_auth.rs. A token carries a
random prefix, its timestamp under a mask, and a tag; the two keyed functions
and the credential scope are hash constructions and stay parameters. Numbers
are unsigned 64-bit and release builds wrap.
-/

namespace Mirage.Auth
open Word

structure Token where
  randomPrefix : BitVec 64
  hiddenTs : BitVec 64
  tag : BitVec 128
  deriving DecidableEq

abbrev Scope := BitVec 64

structure TokenCrypto where
  tsMask : String → BitVec 64 → BitVec 64
  poly1305Tag : String → BitVec 64 → BitVec 64 → List UInt8 → BitVec 128
  scope : String → Scope

/-- A stand-in for the keyed functions to run the model with: no mask, and the
random prefix as the tag. -/
def plainCrypto : TokenCrypto where
  tsMask _ _ := 0
  poly1305Tag _ _ randomPrefix _ := randomPrefix.setWidth 128
  scope _ := 0

def replayBucketSecs : Nat := 10

def replayBucketCap : Nat := 50000

/-- `seen`: the high-water mark and the token set of each bucket. -/
structure TokenReplayCache where
  hwm : Nat
  cache : Nat → List Token

namespace TokenReplayCache

def new : TokenReplayCache := ⟨0, fun _ => []⟩

def rollsBack (self : TokenReplayCache) (ts retainBuckets : Nat) : Bool :=
  decide (saturatingAdd (ts / replayBucketSecs) retainBuckets < self.hwm)

/-- The mark after the token's bucket is taken into account. -/
def turn (self : TokenReplayCache) (ts retainBuckets : Nat) : TokenReplayCache :=
  if self.rollsBack ts retainBuckets then ⟨ts / replayBucketSecs, fun _ => []⟩
  else ⟨max self.hwm (ts / replayBucketSecs), self.cache⟩

def retain (self : TokenReplayCache) (retainBuckets : Nat) : TokenReplayCache :=
  { self with
    cache := fun bucket => if self.hwm - bucket ≤ retainBuckets then self.cache bucket else [] }

/-- `bucket.insert`, refused when the bucket is full. -/
def insert (self : TokenReplayCache) (bucket : Nat) (token : Token) :
    Bool × TokenReplayCache :=
  if replayBucketCap ≤ (self.cache bucket).length then (false, self)
  else if token ∈ self.cache bucket then (false, self)
  else (true, { self with
    cache := Function.update self.cache bucket (self.cache bucket ++ [token]) })

def checkAndInsert (self : TokenReplayCache) (ts : Nat) (token : Token) (retainBuckets : Nat) :
    Bool × TokenReplayCache :=
  ((self.turn ts retainBuckets).retain retainBuckets).insert (ts / replayBucketSecs) token

end TokenReplayCache

def tsWithinTolerance (ts now toleranceSecs : Nat) : Bool :=
  decide (now ≤ saturatingAdd ts toleranceSecs) && decide (ts ≤ saturatingAdd now toleranceSecs)

def retainBuckets (toleranceSecs : Nat) : Nat :=
  wrappingMul 2 toleranceSecs / replayBucketSecs + 2

/-- `REPLAY_CACHES`: one cache for each credential scope. -/
abbrev ReplayCaches := Scope → TokenReplayCache

def ReplayCaches.empty : ReplayCaches := fun _ => TokenReplayCache.new

structure Attempt where
  now : UInt64
  password : String
  token : Token
  bind : List UInt8
  deriving DecidableEq

variable (crypto : TokenCrypto)

def tokenTs (password : String) (token : Token) : BitVec 64 :=
  token.hiddenTs ^^^ crypto.tsMask password token.randomPrefix

def tagValid (password : String) (token : Token) (bind : List UInt8) : Bool :=
  crypto.poly1305Tag password (tokenTs crypto password token) token.randomPrefix bind = token.tag

/-- The token `make_session_token` builds from a clock reading. -/
def makeSessionToken (password : String) (bind : List UInt8) (randomPrefix ts : BitVec 64) :
    Token where
  randomPrefix := randomPrefix
  hiddenTs := ts ^^^ crypto.tsMask password randomPrefix
  tag := crypto.poly1305Tag password ts randomPrefix bind

namespace Attempt

def ts (attempt : Attempt) : Nat := (tokenTs crypto attempt.password attempt.token).toNat

def scope (attempt : Attempt) : Scope := crypto.scope attempt.password

/-- The checks of `verify_session_token` ahead of the replay cache. -/
def gated (tolerance : UInt64) (attempt : Attempt) : Bool :=
  tagValid crypto attempt.password attempt.token attempt.bind &&
    tsWithinTolerance (attempt.ts crypto) attempt.now.toNat tolerance.toNat

end Attempt

def verifySessionToken (tolerance : UInt64) (caches : ReplayCaches) (attempt : Attempt) :
    Bool × ReplayCaches :=
  if !tagValid crypto attempt.password attempt.token attempt.bind then (false, caches)
  else if !tsWithinTolerance (attempt.ts crypto) attempt.now.toNat tolerance.toNat then
    (false, caches)
  else
    let scope := attempt.scope crypto
    let (fresh, cache) := (caches scope).checkAndInsert (attempt.ts crypto) attempt.token
      (retainBuckets tolerance.toNat)
    (fresh, Function.update caches scope cache)

section Specification
variable {crypto} {tolerance : UInt64}

@[simp] theorem tokenTs_make (password : String) (bind : List UInt8)
    (randomPrefix ts : BitVec 64) :
    tokenTs crypto password (makeSessionToken crypto password bind randomPrefix ts) = ts := by
  rw [tokenTs, makeSessionToken, BitVec.xor_assoc, BitVec.xor_self, BitVec.xor_zero]

@[simp] theorem tagValid_make (password : String) (bind : List UInt8)
    (randomPrefix ts : BitVec 64) :
    tagValid crypto password (makeSessionToken crypto password bind randomPrefix ts) bind =
      true := by
  rw [tagValid, tokenTs_make]
  exact decide_eq_true rfl

theorem tsWithinTolerance_iff {ts now tol : Nat} (tsFits : ts ≤ maxU64) (nowFits : now ≤ maxU64) :
    tsWithinTolerance ts now tol = true ↔ now ≤ ts + tol ∧ ts ≤ now + tol := by
  rw [tsWithinTolerance, Bool.and_eq_true, decide_eq_true_iff, decide_eq_true_iff,
    saturatingAdd, saturatingAdd]
  omega

theorem ts_le (attempt : Attempt) : attempt.ts crypto ≤ maxU64 :=
  Nat.le_sub_one_of_lt (tokenTs crypto attempt.password attempt.token).isLt

theorem now_le (attempt : Attempt) : attempt.now.toNat ≤ maxU64 :=
  Nat.le_sub_one_of_lt attempt.now.toNat_lt

theorem verify_of_gated {caches : ReplayCaches} {attempt : Attempt}
    (gated : attempt.gated crypto tolerance = true) :
    verifySessionToken crypto tolerance caches attempt =
      (((caches (attempt.scope crypto)).checkAndInsert (attempt.ts crypto) attempt.token
          (retainBuckets tolerance.toNat)).1,
        Function.update caches (attempt.scope crypto)
          ((caches (attempt.scope crypto)).checkAndInsert (attempt.ts crypto) attempt.token
            (retainBuckets tolerance.toNat)).2) := by
  obtain ⟨tag, inWindow⟩ := Bool.and_eq_true_iff.mp gated
  simp [verifySessionToken, tag, inWindow]

theorem verify_of_not_gated {caches : ReplayCaches} {attempt : Attempt}
    (barred : attempt.gated crypto tolerance = false) :
    verifySessionToken crypto tolerance caches attempt = (false, caches) := by
  simp only [verifySessionToken]
  rcases Bool.and_eq_false_iff.mp barred with tag | outside
  · simp [tag]
  · cases tagValid crypto attempt.password attempt.token attempt.bind <;> simp [outside]

namespace TokenReplayCache
variable {self : TokenReplayCache} {ts retainBuckets : Nat} {token : Token}

theorem turn_hwm (self : TokenReplayCache) (ts retainBuckets : Nat) :
    (self.turn ts retainBuckets).hwm = if self.rollsBack ts retainBuckets then
      ts / replayBucketSecs else max self.hwm (ts / replayBucketSecs) := by
  rw [turn]
  split <;> rfl

@[simp] theorem retain_hwm (self : TokenReplayCache) (retainBuckets : Nat) :
    (self.retain retainBuckets).hwm = self.hwm := rfl

@[simp] theorem insert_hwm (self : TokenReplayCache) (bucket : Nat) (token : Token) :
    (self.insert bucket token).2.hwm = self.hwm := by
  simp only [insert]
  split
  · rfl
  · split <;> rfl

theorem insert_keeps {bucket other : Nat} {kept : Token} (member : kept ∈ self.cache other) :
    kept ∈ (self.insert bucket token).2.cache other := by
  simp only [insert]
  split
  · exact member
  · split
    · exact member
    · by_cases same : other = bucket
      · subst same
        simp
        exact Or.inl member
      · simpa [Function.update_of_ne same] using member

theorem insert_accepted {bucket : Nat} (accepted : (self.insert bucket token).1 = true) :
    token ∈ (self.insert bucket token).2.cache bucket := by
  simp only [insert] at accepted ⊢
  split at accepted
  · cases accepted
  · rename_i room
    split at accepted
    · cases accepted
    · rename_i fresh
      simp [room, fresh]

theorem insert_present {bucket : Nat} (member : token ∈ self.cache bucket) :
    (self.insert bucket token).1 = false := by
  rw [insert, if_pos member]
  split <;> rfl

theorem insert_empty {bucket : Nat} (empty : self.cache bucket = []) :
    (self.insert bucket token).1 = true := by
  simp [insert, empty, replayBucketCap]

@[simp] theorem checkAndInsert_hwm (self : TokenReplayCache) (ts : Nat) (token : Token)
    (retainBuckets : Nat) :
    (self.checkAndInsert ts token retainBuckets).2.hwm = (self.turn ts retainBuckets).hwm := by
  simp [checkAndInsert]

/-- A rollback starts from an empty cache, so the attempt is accepted. -/
theorem checkAndInsert_of_rollsBack (back : self.rollsBack ts retainBuckets = true) :
    (self.checkAndInsert ts token retainBuckets).1 = true := by
  apply insert_empty
  simp [turn, back, retain]

theorem checkAndInsert_drops {bucket : Nat} (other : bucket ≠ ts / replayBucketSecs)
    (far : retainBuckets < (self.turn ts retainBuckets).hwm - bucket) :
    (self.checkAndInsert ts token retainBuckets).2.cache bucket = [] := by
  have dropped : ((self.turn ts retainBuckets).retain retainBuckets).cache bucket = [] :=
    if_neg (Nat.not_le.mpr far)
  simp only [checkAndInsert, insert]
  split
  · exact dropped
  · split
    · exact dropped
    · simpa [Function.update_of_ne other] using dropped

theorem retained (calm : self.rollsBack ts retainBuckets = false) {bucket : Nat}
    (near : max self.hwm (ts / replayBucketSecs) - bucket ≤ retainBuckets) :
    ((self.turn ts retainBuckets).retain retainBuckets).cache bucket = self.cache bucket := by
  simp only [turn, calm, Bool.false_eq_true, if_false, retain, if_pos near]

theorem mem_checkAndInsert {bucket : Nat} {stored : Token}
    (member : stored ∈ (self.checkAndInsert ts token retainBuckets).2.cache bucket) :
    stored ∈ self.cache bucket ∨
      (self.checkAndInsert ts token retainBuckets).1 = true ∧ stored = token ∧
        bucket = ts / replayBucketSecs := by
  have old : ∀ other, other ∈ ((self.turn ts retainBuckets).retain retainBuckets).cache bucket →
      other ∈ self.cache bucket := by
    intro other kept
    cases back : self.rollsBack ts retainBuckets <;> simp only [retain, turn, back] at kept <;>
      split at kept <;> simp_all
  simp only [checkAndInsert, insert] at member ⊢
  split at member
  · exact Or.inl (old stored member)
  · rename_i room
    split at member
    · exact Or.inl (old stored member)
    · rename_i fresh
      by_cases own : bucket = ts / replayBucketSecs
      · subst own
        dsimp only at member
        rw [Function.update_self, List.mem_append, List.mem_singleton] at member
        exact member.imp (old stored) fun same => by simp [room, fresh, same]
      · dsimp only at member
        rw [Function.update_of_ne own] at member
        exact Or.inl (old stored member)

/-- Without a rollback the attempt's own bucket survives, and shows a replay. -/
theorem checkAndInsert_present (calm : self.rollsBack ts retainBuckets = false)
    (stored : token ∈ self.cache (ts / replayBucketSecs)) :
    (self.checkAndInsert ts token retainBuckets).1 = false := by
  have near : max self.hwm (ts / replayBucketSecs) - ts / replayBucketSecs ≤ retainBuckets := by
    rw [rollsBack, decide_eq_false_iff_not, saturatingAdd] at calm
    omega
  apply insert_present
  rwa [retained calm near]

end TokenReplayCache

end Specification

end Mirage.Auth
