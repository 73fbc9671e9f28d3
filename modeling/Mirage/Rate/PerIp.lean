import Mirage.Rate.Limiter

/-!
One bucket pair per address. The table keeps its shape in every run; that all
connections of an address share a pair also needs that no address gets an entry
of its own while a connection of it still sits on the network's shared pair.
-/

namespace Mirage.Rate.Limiter
open Router Egress Assoc Trace

namespace RateLimiter

structure Sound (limiter : RateLimiter) (rates : List Nat) : Prop where
  unique : UniqueKeys limiter.live
  networks : UniqueKeys limiter.overflow
  capped : limiter.live.length ≤ rateLimitCap
  limits : ∀ c ∈ limiter.cidrs, c.2 ≤ u64Max
  made : ∀ rate ∈ rates, ∃ limit ≤ u64Max, rate = bucketRate limit
  entries : ∀ ip entry, (ip, entry) ∈ limiter.live → ∃ net limit,
    limiter.resolve ip = some (net, limit) ∧ rates[entry.buckets]? = some (bucketRate limit)
  shared : ∀ net buckets, (net, buckets) ∈ limiter.overflow → buckets < rates.length

section Tables
variable {limiter : RateLimiter} {rates : List Nat} {ip : IpAddr} {now : Nat}

theorem resolve_mem {net : IpNet} {limit : Nat} (resolved : limiter.resolve ip = some (net, limit)) :
    (net, limit) ∈ limiter.cidrs :=
  List.mem_of_find?_eq_some resolved

theorem entry_lt {entry : LiveBucketEntry} (sound : limiter.Sound rates)
    (member : (ip, entry) ∈ limiter.live) : entry.buckets < rates.length := by
  obtain ⟨_, _, _, found⟩ := sound.entries ip entry member
  exact (List.getElem?_eq_some_iff.mp found).1

theorem mem_touch {other : IpAddr} {entry : LiveBucketEntry} :
    (other, entry) ∈ (limiter.touch ip now).live ↔
      ∃ old, (other, old) ∈ limiter.live ∧
        entry = if other = ip then { old with last := now } else old := by
  simp only [touch, List.mem_map]
  constructor
  · rintro ⟨⟨key, old⟩, member, same⟩
    by_cases hit : key = ip
    · rw [if_pos hit] at same
      obtain ⟨rfl, rfl⟩ := Prod.mk.inj same
      exact ⟨old, hit ▸ member, (if_pos rfl).symm⟩
    · rw [if_neg hit] at same
      obtain ⟨rfl, rfl⟩ := Prod.mk.inj same
      exact ⟨old, member, (if_neg hit).symm⟩
  · rintro ⟨old, member, rfl⟩
    refine ⟨(other, old), member, ?_⟩
    by_cases hit : other = ip
    · rw [if_pos hit, if_pos hit, hit]
    · rw [if_neg hit, if_neg hit]

theorem keys_touch : (limiter.touch ip now).live.map Prod.fst = limiter.live.map Prod.fst := by
  simp only [touch, List.map_map]
  apply List.map_congr_left
  intro p _
  simp only [Function.comp]
  split
  · next hit => exact hit.symm
  · rfl

theorem Sound.touch (sound : limiter.Sound rates) : (limiter.touch ip now).Sound rates where
  unique := by
    rw [UniqueKeys, keys_touch]
    exact sound.unique
  networks := sound.networks
  capped := by
    simp only [RateLimiter.touch, List.length_map]
    exact sound.capped
  limits := sound.limits
  made := sound.made
  entries := by
    intro other entry member
    obtain ⟨old, before, rfl⟩ := mem_touch.mp member
    obtain ⟨net, limit, resolved, rate⟩ := sound.entries other old before
    refine ⟨net, limit, resolved, ?_⟩
    split <;> exact rate
  shared := sound.shared

theorem Sound.filter (sound : limiter.Sound rates) (keep : IpAddr × LiveBucketEntry → Bool) :
    Sound { limiter with live := limiter.live.filter keep } rates where
  unique := sound.unique.filter keep
  networks := sound.networks
  capped := (List.length_filter_le _ _).trans sound.capped
  limits := sound.limits
  made := sound.made
  entries := fun ip entry member => sound.entries ip entry (List.mem_filter.mp member).1
  shared := sound.shared

theorem getElem?_append_old {rates : List Nat} {id rate : Nat} (extra : List Nat)
    (found : rates[id]? = some rate) : (rates ++ extra)[id]? = some rate := by
  rw [List.getElem?_append_left (List.getElem?_eq_some_iff.mp found).1, found]

theorem Sound.made_append {net : IpNet} {rate : Nat} (sound : limiter.Sound rates)
    (resolved : limiter.resolve ip = some (net, rate)) :
    ∀ made ∈ rates ++ [bucketRate rate], ∃ limit ≤ u64Max, made = bucketRate limit := by
  intro made member
  rcases List.mem_append.mp member with old | new
  · exact sound.made made old
  · exact ⟨rate, sound.limits _ (resolve_mem resolved), List.mem_singleton.mp new⟩

theorem Sound.insert {net : IpNet} {rate : Nat} (sound : limiter.Sound rates)
    (resolved : limiter.resolve ip = some (net, rate))
    (missing : ∀ entry, (ip, entry) ∉ limiter.live) (room : limiter.live.length < rateLimitCap) :
    (limiter.insert ip ⟨rates.length, now⟩).Sound (rates ++ [bucketRate rate]) where
  unique := sound.unique.append missing _
  networks := sound.networks
  capped := by
    simp only [RateLimiter.insert, List.length_append, List.length_singleton]
    exact room
  limits := sound.limits
  made := sound.made_append resolved
  entries := by
    intro other entry member
    rcases List.mem_append.mp member with old | new
    · obtain ⟨found, limit, same, known⟩ := sound.entries other entry old
      exact ⟨found, limit, same, getElem?_append_old _ known⟩
    · obtain ⟨rfl, rfl⟩ := Prod.mk.inj (List.mem_singleton.mp new)
      exact ⟨net, rate, resolved, List.getElem?_concat_length⟩
  shared := fun other buckets member => by
    rw [List.length_append]
    exact Nat.lt_add_right _ (sound.shared other buckets member)

theorem Sound.spill {net : IpNet} {rate : Nat} (sound : limiter.Sound rates)
    (resolved : limiter.resolve ip = some (net, rate))
    (unshared : ∀ buckets, (net, buckets) ∉ limiter.overflow) :
    Sound { limiter with overflow := limiter.overflow ++ [(net, rates.length)] }
      (rates ++ [bucketRate rate]) where
  unique := sound.unique
  networks := sound.networks.append unshared _
  capped := sound.capped
  limits := sound.limits
  made := sound.made_append resolved
  entries := by
    intro other entry member
    obtain ⟨found, limit, same, known⟩ := sound.entries other entry member
    exact ⟨found, limit, same, getElem?_append_old _ known⟩
  shared := by
    intro other buckets member
    rw [List.length_append, List.length_singleton]
    rcases List.mem_append.mp member with old | new
    · exact Nat.lt_succ_of_lt (sound.shared other buckets old)
    · obtain ⟨rfl, rfl⟩ := Prod.mk.inj (List.mem_singleton.mp new)
      exact Nat.lt_succ_self _

theorem oldest_mem {held : Nat → Bool} {victim : IpAddr}
    (chosen : oldest (limiter.idle held) victim) :
    ∃ entry, (victim, entry) ∈ limiter.live ∧ held entry.buckets = false := by
  obtain ⟨⟨key, entry⟩, member, first⟩ := List.any_eq_true.mp chosen
  obtain ⟨inside, free⟩ := List.mem_filter.mp member
  simp only [Bool.and_eq_true, decide_eq_true_eq] at first
  obtain ⟨rfl, _⟩ := first
  exact ⟨entry, inside, by simpa using free⟩

theorem mem_remove {victim other : IpAddr} {entry : LiveBucketEntry} :
    (other, entry) ∈ (limiter.remove victim).live ↔
      (other, entry) ∈ limiter.live ∧ other ≠ victim := by
  simp only [remove, List.mem_filter, decide_eq_true_eq]

theorem length_remove_lt {victim : IpAddr} {entry : LiveBucketEntry}
    (member : (victim, entry) ∈ limiter.live) :
    (limiter.remove victim).live.length < limiter.live.length := by
  apply List.length_filter_lt_length_iff_exists.mpr
  exact ⟨_, member, by simp⟩

/-- What an acquisition keeps of a table, and what it can hand out. -/
structure Keeps (limiter : RateLimiter) (rates : List Nat) (ip : IpAddr)
    (out : Option Nat × RateLimiter × List Nat) : Prop where
  sound : out.2.1.Sound out.2.2
  cidrs : out.2.1.cidrs = limiter.cidrs
  rates : rates <+: out.2.2
  made : ∀ buckets, out.1 = some buckets →
    buckets < out.2.2.length ∧ ∃ net rate, limiter.resolve ip = some (net, rate)

theorem Sound.acquired {held : Nat → Bool} {out : Option Nat × RateLimiter × List Nat}
    (sound : limiter.Sound rates) (acquired : Acquired limiter rates held ip now out) :
    limiter.Keeps rates ip out := by
  have fresh : ∀ rate : Nat, rates.length < (rates ++ [rate]).length := fun rate => by
    rw [List.length_append, List.length_singleton]
    exact Nat.lt_succ_self _
  cases acquired with
  | unlimited free => exact ⟨sound, rfl, List.prefix_rfl, fun _ none => nomatch none⟩
  | @own net rate entry resolved here =>
      refine ⟨sound.touch, rfl, List.prefix_rfl, ?_⟩
      rintro buckets ⟨⟩
      exact ⟨entry_lt sound (mem_of_lookup here), net, rate, resolved⟩
  | @spilled net rate buckets resolved missing full busy shared =>
      refine ⟨sound, rfl, List.prefix_rfl, ?_⟩
      rintro buckets ⟨⟩
      exact ⟨sound.shared _ _ (mem_of_lookup shared), net, rate, resolved⟩
  | @firstSpilled net rate resolved missing full busy unshared =>
      refine ⟨sound.spill resolved (not_mem_of_lookup unshared), rfl, List.prefix_append _ _, ?_⟩
      rintro buckets ⟨⟩
      exact ⟨fresh _, net, rate, resolved⟩
  | @evicted net rate victim resolved missing full chosen =>
      obtain ⟨entry, member, free⟩ := oldest_mem chosen
      have fewer : (limiter.remove victim).Sound rates := sound.filter _
      refine ⟨fewer.insert resolved ?_ ?_, rfl, List.prefix_append _ _, ?_⟩
      · intro other inside
        exact not_mem_of_lookup missing other (mem_remove.mp inside).1
      · exact (length_remove_lt member).trans_le sound.capped
      · rintro buckets ⟨⟩
        exact ⟨fresh _, net, rate, resolved⟩
  | @inserted net rate resolved missing room =>
      refine ⟨sound.insert resolved (not_mem_of_lookup missing) room, rfl,
        List.prefix_append _ _, ?_⟩
      rintro buckets ⟨⟩
      exact ⟨fresh _, net, rate, resolved⟩

theorem bucketRate_le {limit : Nat} (fits : limit ≤ u64Max) : bucketRate limit ≤ 2 ^ 64 := by
  apply Rounding.round_le (by decide) (by decide)
  unfold u64Max at fits
  omega

/-- A pair whose rate reads as the limit has the rate of that limit's pairs. -/
theorem bucketRate_of_asU64 {limit other : Nat} (fits : limit ≤ u64Max)
    (same : asU64 (bucketRate limit) = other) : bucketRate limit = bucketRate other := by
  subst other
  have positive : 0 < bucketRate limit :=
    Rounding.round_pos (by decide) (Nat.lt_of_lt_of_le Nat.one_pos (Nat.le_max_right _ _))
  rcases Nat.lt_or_ge u64Max (bucketRate limit) with beyond | within
  · have top : bucketRate limit = 2 ^ 64 := by
      have bound := bucketRate_le fits
      unfold u64Max at beyond
      omega
    rw [asU64, Nat.min_eq_right beyond.le, top]
    decide +kernel
  · rw [asU64, Nat.min_eq_left within]
    conv_rhs => rw [bucketRate, Nat.max_eq_left positive]
    exact (Rounding.round_round (by decide)).symm

variable (ipNet : String → Option IpNet)

theorem fromDeviceProfiles_limits (dps : List DeviceProfile) :
    ∀ c ∈ (fromDeviceProfiles ipNet dps).cidrs, c.2 ≤ u64Max := by
  intro c member
  obtain ⟨dp, _, listed⟩ := List.mem_flatMap.mp member
  split at listed
  · cases listed
  · obtain ⟨text, _, parsed⟩ := List.mem_filterMap.mp listed
    obtain ⟨net, _, rfl⟩ := Option.map_eq_some_iff.mp parsed
    exact Nat.min_le_right _ _

theorem Sound.start (dps : List DeviceProfile) : (fromDeviceProfiles ipNet dps).Sound [] where
  unique := List.nodup_nil
  networks := List.nodup_nil
  capped := Nat.zero_le _
  limits := fromDeviceProfiles_limits ipNet dps
  made := fun _ none => nomatch none
  entries := fun _ _ none => nomatch none
  shared := fun _ _ none => nomatch none

theorem Sound.rebuild (sound : limiter.Sound rates) (dps : List DeviceProfile) :
    (rebuildFrom ipNet dps limiter rates).Sound rates where
  unique := sound.unique.filter _
  networks := sound.networks.filter _
  capped := (List.length_filter_le _ _).trans sound.capped
  limits := fromDeviceProfiles_limits ipNet dps
  made := sound.made
  entries := by
    intro ip entry member
    obtain ⟨before, kept⟩ := List.mem_filter.mp member
    obtain ⟨old, limit, was, known⟩ := sound.entries ip entry before
    obtain ⟨c, resolved, unchanged⟩ := (Option.any_eq_true _ _).mp kept
    rw [known, Option.any_some, beq_iff_eq] at unchanged
    have same := bucketRate_of_asU64 (sound.limits _ (resolve_mem was)) unchanged
    exact ⟨c.1, c.2, resolved, known.trans (congrArg some same)⟩
  shared := fun net buckets member => sound.shared net buckets (List.mem_filter.mp member).1

end Tables
end RateLimiter

namespace State
open RateLimiter

structure Sound (state : State) : Prop where
  table : state.limiter.Sound state.rates
  conns : ∀ c ∈ state.alive, c.buckets < state.rates.length ∧ c.config ≤ state.config
  current : ∀ c ∈ state.alive, c.config = state.config →
    ∃ net, state.limiter.resolve c.ip = some (net, c.limit)

/-- Live connections of one address from one configuration share a bucket pair,
and its rate is the address's limit. -/
structure OneBucket (state : State) : Prop where
  one : ∀ c ∈ state.alive, ∀ d ∈ state.alive, c.ip = d.ip → c.config = d.config →
    c.buckets = d.buckets
  rate : ∀ c ∈ state.alive, state.rates[c.buckets]? = some (bucketRate c.limit)

/-- A current connection holds its address's entry, or the network's shared
pair when there is no entry. -/
structure Placed (state : State) : Prop where
  own : ∀ c ∈ state.alive, c.config = state.config →
    ∀ entry, (c.ip, entry) ∈ state.limiter.live → c.buckets = entry.buckets
  spill : ∀ c ∈ state.alive, c.config = state.config →
    (∀ entry, (c.ip, entry) ∉ state.limiter.live) →
    ∀ net limit, state.limiter.resolve c.ip = some (net, limit) →
      (net, c.buckets) ∈ state.limiter.overflow

/-- No address moves from the shared pair to a pair of its own while it has
current connections; a shared pair that is handed out has the limit's rate; a
reload of the same limits finds them exact as floating point numbers. -/
def Settled (ipNet : String → Option IpNet) (state : State) : Event → Prop
  | .acquire ip _ _ elsewhere =>
      ∀ net rate, state.limiter.resolve ip = some (net, rate) →
        state.limiter.live.lookup ip = none →
        if state.limiter.live.length < rateLimitCap ∨
            state.limiter.idle (state.held elsewhere) ≠ [] then
          ∀ c ∈ state.alive, c.ip = ip → c.config ≠ state.config
        else
          ∀ buckets, state.limiter.overflow.lookup net = some buckets →
            state.rates[buckets]? = some (bucketRate rate)
  | .drop _ => True
  | .rebuild dps =>
      (fromDeviceProfiles ipNet dps).cidrs = state.limiter.cidrs →
        ∀ c ∈ state.limiter.cidrs, asU64 (bucketRate c.2) = c.2

section Steps
variable {ipNet : String → Option IpNet} {state next : State}

theorem held_of_alive {elsewhere : List Nat} {c : Conn} (alive : c ∈ state.alive) :
    state.held elsewhere c.buckets = true := by
  rw [held, Bool.or_eq_true]
  exact .inl (List.any_eq_true.mpr ⟨c, alive, decide_eq_true rfl⟩)

theorem Sound.step {event : Event} (sound : state.Sound)
    (stepped : state.step ipNet event = some next) : next.Sound := by
  cases event with
  | acquire ip now victim elsewhere =>
      obtain ⟨out, answered, rfl⟩ := Option.map_eq_some_iff.mp stepped
      have keeps := sound.table.acquired (bucketsFor_acquired answered)
      obtain ⟨got, limiter, rates⟩ := out
      have same : ∀ ip, limiter.resolve ip = state.limiter.resolve ip := fun ip => by
        rw [resolve, keeps.cidrs, ← resolve]
      have longer := keeps.rates.length_le
      cases got with
      | none =>
          refine ⟨keeps.sound, ?_, ?_⟩
          · intro c alive
            exact ⟨(sound.conns c alive).1.trans_le longer, (sound.conns c alive).2⟩
          · intro c alive recent
            simp only [connect, same]
            exact sound.current c alive recent
      | some buckets =>
          obtain ⟨below, net, rate, resolved⟩ := keeps.made buckets rfl
          refine ⟨keeps.sound, ?_, ?_⟩
          · intro c alive
            rcases List.mem_append.mp alive with old | new
            · exact ⟨(sound.conns c old).1.trans_le longer, (sound.conns c old).2⟩
            · rw [List.mem_singleton.mp new]
              exact ⟨below, Nat.le_refl _⟩
          · intro c alive recent
            simp only [connect, same]
            rcases List.mem_append.mp alive with old | new
            · exact sound.current c old recent
            · rw [List.mem_singleton.mp new, resolved]
              exact ⟨net, rfl⟩
  | drop index =>
      cases stepped
      exact ⟨sound.table, fun c alive => sound.conns c (List.mem_of_mem_eraseIdx alive),
        fun c alive => sound.current c (List.mem_of_mem_eraseIdx alive)⟩
  | rebuild dps =>
      cases stepped
      refine ⟨sound.table.rebuild ipNet dps, ?_, ?_⟩
      · intro c alive
        refine ⟨(sound.conns c alive).1, (sound.conns c alive).2.trans ?_⟩
        dsimp only
        split
        · exact Nat.le_refl _
        · exact Nat.le_succ _
      · intro c alive recent
        dsimp only at recent ⊢
        split at recent
        case isTrue same =>
          rw [resolve, same, ← resolve]
          exact sound.current c alive recent
        -- A connection of this epoch would be one of a later epoch than the last.
        case isFalse => exact absurd (sound.conns c alive).2 (recent ▸ Nat.not_succ_le_self _)

theorem OneBucket.connect {ip : IpAddr} {buckets rate : Nat} {net : IpNet}
    {limiter : RateLimiter} {rates : List Nat} (one : state.OneBucket)
    (longer : state.rates <+: rates) (resolved : state.limiter.resolve ip = some (net, rate))
    (agree : ∀ c ∈ state.alive, c.ip = ip → c.config = state.config → c.buckets = buckets)
    (limit : rates[buckets]? = some (bucketRate rate)) :
    (state.connect ip (some buckets, limiter, rates)).OneBucket where
  one := by
    intro c first d second sameIp sameConfig
    rcases List.mem_append.mp first with oldC | newC <;>
      rcases List.mem_append.mp second with oldD | newD
    · exact one.one c oldC d oldD sameIp sameConfig
    · rw [List.mem_singleton.mp newD] at sameIp sameConfig ⊢
      exact agree c oldC sameIp sameConfig
    · rw [List.mem_singleton.mp newC] at sameIp sameConfig ⊢
      exact (agree d oldD sameIp.symm sameConfig.symm).symm
    · rw [List.mem_singleton.mp newC, List.mem_singleton.mp newD]
  rate := by
    intro c alive
    rcases List.mem_append.mp alive with old | new
    · obtain ⟨extra, rfl⟩ := longer
      exact getElem?_append_old extra (one.rate c old)
    · rw [List.mem_singleton.mp new, resolved]
      exact limit

theorem Placed.connect {ip : IpAddr} {buckets : Nat} {limiter : RateLimiter} {rates : List Nat}
    (before : Placed { state with limiter, rates })
    (own : ∀ entry, (ip, entry) ∈ limiter.live → buckets = entry.buckets)
    (spill : (∀ entry, (ip, entry) ∉ limiter.live) → ∀ net limit,
      limiter.resolve ip = some (net, limit) → (net, buckets) ∈ limiter.overflow) :
    (state.connect ip (some buckets, limiter, rates)).Placed where
  own := by
    intro c alive recent
    rcases List.mem_append.mp alive with old | new
    · exact before.own c old recent
    · rw [List.mem_singleton.mp new]
      exact own
  spill := by
    intro c alive recent
    rcases List.mem_append.mp alive with old | new
    · exact before.spill c old recent
    · rw [List.mem_singleton.mp new]
      exact spill

/-- Giving an address without current connections an entry, after removing at
most an entry that no connection holds. -/
theorem Placed.insert {base : RateLimiter} {ip : IpAddr} {entry : LiveBucketEntry}
    {rates : List Nat} (placed : state.Placed)
    (alone : ∀ c ∈ state.alive, c.ip = ip → c.config ≠ state.config)
    (fewer : ∀ other old, (other, old) ∈ base.live → (other, old) ∈ state.limiter.live)
    (kept : ∀ c ∈ state.alive, ∀ old, (c.ip, old) ∈ state.limiter.live →
      c.buckets = old.buckets → (c.ip, old) ∈ base.live)
    (cidrs : base.cidrs = state.limiter.cidrs) (overflow : base.overflow = state.limiter.overflow) :
    Placed { state with limiter := base.insert ip entry, rates } where
  own := by
    intro c alive recent other member
    rcases List.mem_append.mp member with old | new
    · exact placed.own c alive recent other (fewer _ _ old)
    · exact absurd recent (alone c alive (Prod.mk.inj (List.mem_singleton.mp new)).1)
  spill := by
    intro c alive recent missing net limit resolved
    rw [resolve, RateLimiter.insert, cidrs, ← resolve] at resolved
    rw [RateLimiter.insert, overflow]
    apply placed.spill c alive recent _ net limit resolved
    intro old member
    have same := placed.own c alive recent old member
    exact missing old (List.mem_append_left _ (kept c alive old member same))

theorem acquired_together {ip : IpAddr} {now : Nat} {elsewhere : List Nat} {victim : IpAddr}
    {out : Option Nat × RateLimiter × List Nat} (sound : state.Sound) (one : state.OneBucket)
    (placed : state.Placed) (settled : state.Settled ipNet (.acquire ip now victim elsewhere))
    (acquired : Acquired state.limiter state.rates (state.held elsewhere) ip now out) :
    (state.connect ip out).OneBucket ∧ (state.connect ip out).Placed := by
  have fresh : ∀ rate : Nat, (state.rates ++ [rate])[state.rates.length]? = some rate :=
    fun rate => List.getElem?_concat_length
  cases acquired with
  | unlimited free => exact ⟨⟨one.one, one.rate⟩, ⟨placed.own, placed.spill⟩⟩
  | @own net rate entry resolved here =>
      have member := mem_of_lookup here
      have agree : ∀ c ∈ state.alive, c.ip = ip → c.config = state.config →
          c.buckets = entry.buckets := by
        rintro c alive rfl recent
        exact placed.own c alive recent entry member
      obtain ⟨_, _, again, known⟩ := sound.table.entries ip entry member
      cases resolved.symm.trans again
      refine ⟨one.connect List.prefix_rfl resolved agree known, Placed.connect ⟨?_, ?_⟩ ?_ ?_⟩
      · intro c alive recent other touched
        obtain ⟨old, before, rfl⟩ := mem_touch.mp touched
        have same := placed.own c alive recent old before
        split <;> exact same
      · intro c alive recent missing
        apply placed.spill c alive recent
        intro old before
        exact missing _ (mem_touch.mpr ⟨old, before, rfl⟩)
      · intro other touched
        obtain ⟨old, before, rfl⟩ := mem_touch.mp touched
        rw [sound.table.unique.same before member]
        split <;> rfl
      · intro missing
        exact absurd (mem_touch.mpr ⟨entry, member, rfl⟩) (missing _)
  | @spilled net rate buckets resolved missing full busy shared =>
      have allowed := settled net rate resolved missing
      rw [if_neg (by rw [not_or, Decidable.not_not]; exact ⟨full.not_gt, busy⟩)] at allowed
      have pair := mem_of_lookup shared
      refine ⟨one.connect List.prefix_rfl resolved ?_ (allowed buckets shared),
        Placed.connect placed ?_ ?_⟩
      · rintro c alive rfl recent
        have place := placed.spill c alive recent (not_mem_of_lookup missing) net rate resolved
        exact sound.table.networks.same place pair
      · exact fun entry member => absurd member (not_mem_of_lookup missing entry)
      · intro _ other limit again
        cases resolved.symm.trans again
        exact pair
  | @firstSpilled net rate resolved missing full busy unshared =>
      refine ⟨one.connect (List.prefix_append _ _) resolved ?_ (fresh _),
        Placed.connect ⟨placed.own, ?_⟩ ?_ ?_⟩
      · rintro c alive rfl recent
        have place := placed.spill c alive recent (not_mem_of_lookup missing) net rate resolved
        exact absurd place (not_mem_of_lookup unshared _)
      · intro c alive recent none other limit found
        exact List.mem_append_left _ (placed.spill c alive recent none other limit found)
      · exact fun entry member => absurd member (not_mem_of_lookup missing entry)
      · intro _ other limit again
        cases resolved.symm.trans again
        exact List.mem_append_right _ (List.mem_singleton.mpr rfl)
  | @evicted net rate victim resolved missing full chosen =>
      obtain ⟨loser, member, free⟩ := oldest_mem chosen
      have alone := settled net rate resolved missing
      have candidates : state.limiter.idle (state.held elsewhere) ≠ [] := by
        intro none
        rw [none] at chosen
        cases chosen
      rw [if_pos (.inr candidates)] at alone
      refine ⟨one.connect (List.prefix_append _ _) resolved
          (fun c alive same recent => absurd recent (alone c alive same)) (fresh _),
        Placed.connect (placed.insert alone (fun _ _ inside => (mem_remove.mp inside).1) ?_ rfl rfl)
          ?_ ?_⟩
      · rintro c alive old inside same
        refine mem_remove.mpr ⟨inside, ?_⟩
        rintro rfl
        -- The victim's entry would be held by this very connection.
        rw [← sound.table.unique.same inside member, ← same, held_of_alive alive] at free
        cases free
      · intro entry inside
        rcases List.mem_append.mp inside with old | new
        · exact absurd (mem_remove.mp old).1 (not_mem_of_lookup missing entry)
        · rw [(Prod.mk.inj (List.mem_singleton.mp new)).2]
      · intro none
        exact absurd (List.mem_append_right _ (List.mem_singleton.mpr rfl)) (none _)
  | @inserted net rate resolved missing room =>
      have alone := settled net rate resolved missing
      rw [if_pos (.inl room)] at alone
      refine ⟨one.connect (List.prefix_append _ _) resolved
          (fun c alive same recent => absurd recent (alone c alive same)) (fresh _),
        Placed.connect (placed.insert alone (fun _ _ => id) (fun _ _ _ inside _ => inside) rfl rfl)
          ?_ ?_⟩
      · intro entry inside
        rcases List.mem_append.mp inside with old | new
        · exact absurd old (not_mem_of_lookup missing entry)
        · rw [(Prod.mk.inj (List.mem_singleton.mp new)).2]
      · intro none
        exact absurd (List.mem_append_right _ (List.mem_singleton.mpr rfl)) (none _)

/-- A reload of the same limits keeps every pair that a current connection holds. -/
theorem Placed.rebuild {dps : List DeviceProfile} (sound : state.Sound) (one : state.OneBucket)
    (placed : state.Placed)
    (same : (rebuildFrom ipNet dps state.limiter state.rates).cidrs = state.limiter.cidrs)
    (exact : ∀ c ∈ state.limiter.cidrs, asU64 (bucketRate c.2) = c.2) :
    Placed { state with limiter := rebuildFrom ipNet dps state.limiter state.rates } where
  own := fun c alive recent entry member =>
    placed.own c alive recent entry (List.mem_filter.mp member).1
  spill := by
    intro c alive recent missing net limit resolved
    have found : (fromDeviceProfiles ipNet dps).cidrs.find? (fun d => d.1.contains c.ip) =
        some (net, limit) := resolved
    rw [resolve, same, ← resolve] at resolved
    have listed := resolve_mem resolved
    have none : ∀ entry, (c.ip, entry) ∉ state.limiter.live := by
      intro entry member
      obtain ⟨_, _, again, known⟩ := sound.table.entries c.ip entry member
      cases resolved.symm.trans again
      refine missing entry (List.mem_filter.mpr ⟨member, ?_⟩)
      dsimp only
      rw [found, Option.any_some, known, Option.any_some]
      exact beq_iff_eq.mpr (exact _ listed)
    have pair := placed.spill c alive recent none net limit resolved
    obtain ⟨_, again⟩ := sound.current c alive recent
    have known := one.rate c alive
    cases resolved.symm.trans again
    refine List.mem_filter.mpr ⟨pair, List.any_eq_true.mpr ⟨(net, c.limit), ?_, ?_⟩⟩
    · rw [← same] at listed
      exact listed
    · rw [Bool.and_eq_true, known, Option.any_some]
      exact ⟨beq_self_eq_true net, beq_iff_eq.mpr (exact _ listed)⟩

theorem together_step {event : Event} (sound : state.Sound)
    (together : state.OneBucket ∧ state.Placed) (settled : state.Settled ipNet event)
    (stepped : state.step ipNet event = some next) : next.OneBucket ∧ next.Placed := by
  obtain ⟨one, placed⟩ := together
  cases event with
  | acquire ip now victim elsewhere =>
      obtain ⟨out, answered, rfl⟩ := Option.map_eq_some_iff.mp stepped
      exact acquired_together sound one placed settled (bucketsFor_acquired answered)
  | drop index =>
      cases stepped
      have before {c : Conn} : c ∈ state.alive.eraseIdx index → c ∈ state.alive :=
        List.mem_of_mem_eraseIdx
      exact ⟨⟨fun c first d second => one.one c (before first) d (before second),
          fun c alive => one.rate c (before alive)⟩,
        fun c alive => placed.own c (before alive), fun c alive => placed.spill c (before alive)⟩
  | rebuild dps =>
      cases stepped
      refine ⟨⟨one.one, one.rate⟩, ?_⟩
      by_cases same : (rebuildFrom ipNet dps state.limiter state.rates).cidrs = state.limiter.cidrs
      · have kept := placed.rebuild sound one same (settled same)
        exact ⟨fun c alive recent => kept.own c alive (recent.trans (if_pos same)),
          fun c alive recent => kept.spill c alive (recent.trans (if_pos same))⟩
      · have newer : ∀ c ∈ state.alive, c.config ≠ state.config + 1 := by
          intro c alive recent
          exact absurd (sound.conns c alive).2 (recent ▸ Nat.not_succ_le_self _)
        exact ⟨fun c alive recent => absurd (recent.trans (if_neg same)) (newer c alive),
          fun c alive recent => absurd (recent.trans (if_neg same)) (newer c alive)⟩

/-- An acquisition leaves an entry that a connection holds in the table. -/
def KeepsHeld (state next : State) : Prop :=
  ∀ ip entry, (ip, entry) ∈ state.limiter.live → (∃ c ∈ state.alive, c.buckets = entry.buckets) →
    ∃ kept, (ip, kept) ∈ next.limiter.live ∧ kept.buckets = entry.buckets

theorem acquire_keepsHeld {ip : IpAddr} {now : Nat} {victim : IpAddr} {elsewhere : List Nat}
    (sound : state.Sound)
    (stepped : state.step ipNet (.acquire ip now victim elsewhere) = some next) :
    state.KeepsHeld next := by
  obtain ⟨out, answered, rfl⟩ := Option.map_eq_some_iff.mp stepped
  rintro other entry member ⟨c, alive, holds⟩
  cases bucketsFor_acquired answered with
  | unlimited | spilled | firstSpilled => exact ⟨entry, member, rfl⟩
  | own =>
      refine ⟨_, mem_touch.mpr ⟨entry, member, rfl⟩, ?_⟩
      split <;> rfl
  | evicted _ _ _ chosen =>
      obtain ⟨loser, inside, free⟩ := oldest_mem chosen
      refine ⟨entry, List.mem_append_left _ (mem_remove.mpr ⟨member, ?_⟩), rfl⟩
      rintro rfl
      rw [← sound.table.unique.same member inside, ← holds, held_of_alive alive] at free
      cases free
  | inserted => exact ⟨entry, List.mem_append_left _ member, rfl⟩

end Steps

theorem sound_start (ipNet : String → Option IpNet) (dps : List DeviceProfile) :
    (State.start ipNet dps).Sound :=
  ⟨RateLimiter.Sound.start ipNet dps, fun _ none => (nomatch none), fun _ none => (nomatch none)⟩

end State

/-- In every run the table stays within its capacity and no acquisition evicts
an entry that a connection holds; and connections of one address from one
configuration share a pair at the limit's rate as long as no address gets an
entry of its own beside its connections on the shared pair. -/
theorem one_bucket_per_ip (ipNet : String → Option IpNet) (dps : List DeviceProfile)
    {events : List Event} {final : State}
    (followed : follow (State.step ipNet) (State.start ipNet dps) events = some final) :
    final.limiter.live.length ≤ rateLimitCap ∧
      (∀ ip now victim elsewhere next,
        final.step ipNet (.acquire ip now victim elsewhere) = some next → final.KeepsHeld next) ∧
      (Throughout (State.step ipNet) (State.Settled ipNet) (State.start ipNet dps) events →
        final.OneBucket) := by
  have sound : final.Sound :=
    follow_keeps State.Sound (fun before stepped => before.step stepped)
      (State.sound_start ipNet dps) followed
  refine ⟨sound.table.capped, fun _ _ _ _ _ stepped => State.acquire_keepsHeld sound stepped, ?_⟩
  intro settled
  have nobody : ∀ c, c ∉ (State.start ipNet dps).alive := fun _ none => nomatch none
  have initial : (State.start ipNet dps).OneBucket ∧ (State.start ipNet dps).Placed :=
    ⟨⟨fun c alive => absurd alive (nobody c), fun c alive => absurd alive (nobody c)⟩,
      fun c alive => absurd alive (nobody c), fun c alive => absurd alive (nobody c)⟩
  exact (follow_invariant (fun state => state.Sound ∧ state.OneBucket ∧ state.Placed)
    (fun before allowed stepped => ⟨before.1.step stepped,
      State.together_step before.1 before.2 allowed stepped⟩)
    ⟨State.sound_start ipNet dps, initial⟩ followed settled).2.1

section Crowd
open RateLimiter

def everyone : IpNet := .v4 ⟨0, 0, Nat.zero_le _⟩

def everyoneNet (text : String) : Option IpNet :=
  if text = "0.0.0.0/0" then some everyone else none

def thousandKbps : List DeviceProfile :=
  [{ sourceIpCidr := ["0.0.0.0/0"], rateLimitKbps := some 1000 }]

def guest (i : Nat) : IpAddr := .v4 (BitVec.ofNat 32 (0x0a000000 + i))

def arrive (i : Nat) : Event := .acquire (guest i) i (guest 0) []

def guestConn (i : Nat) : Conn := { ip := guest i, limit := 125000, config := 0, buckets := i }

/-- The first `n` guests with a connection and an entry each. -/
def crowd (n : Nat) : State :=
  { limiter :=
      { cidrs := [(everyone, 125000)]
        live := (List.range n).map fun i => (guest i, { buckets := i, last := i })
        overflow := [] }
    rates := List.replicate n 125000
    alive := (List.range n).map guestConn
    config := 0 }

theorem guest_ne {i j : Nat} (differ : i ≠ j) (first : i ≤ rateLimitCap) (second : j ≤ rateLimitCap) :
    guest i ≠ guest j := by
  intro same
  have equal := congrArg BitVec.toNat (IpAddr.v4.inj same)
  simp only [BitVec.toNat_ofNat, rateLimitCap] at *
  omega

theorem resolve_guest {limiter : RateLimiter} (only : limiter.cidrs = [(everyone, 125000)])
    (i : Nat) : limiter.resolve (guest i) = some (everyone, 125000) := by
  have inside : everyone.contains (guest i) = true := by
    simp only [everyone, guest, IpNet.contains]
    rw [AddressPrefix.contains_iff_div]
    exact (Nat.div_eq_of_lt (BitVec.isLt _)).trans (Nat.div_eq_of_lt (BitVec.isLt _)).symm
  rw [resolve, only]
  exact List.find?_cons_of_pos inside

theorem lookup_crowd {n : Nat} (room : n ≤ rateLimitCap) :
    (crowd n).limiter.live.lookup (guest n) = none := by
  rw [List.lookup_eq_none_iff]
  intro p member
  obtain ⟨i, below, rfl⟩ := List.mem_map.mp member
  have before := List.mem_range.mp below
  exact bne_iff_ne.mpr (guest_ne before.ne' room (before.le.trans room))

theorem length_crowd (n : Nat) : (crowd n).limiter.live.length = n := by
  simp only [crowd, List.length_map, List.length_range]

theorem rates_crowd (n : Nat) : (crowd n).rates.length = n := List.length_replicate

theorem rate_guest : bucketRate 125000 = 125000 := by decide +kernel

theorem crowd_succ {n : Nat} (room : n < rateLimitCap) :
    (crowd n).step everyoneNet (arrive n) = some (crowd (n + 1)) := by
  have resolved : (crowd n).limiter.resolve (guest n) = some (everyone, 125000) :=
    resolve_guest rfl n
  have answer : (crowd n).limiter.bucketsFor (crowd n).rates ((crowd n).held []) (guest n) n
      (guest 0) = _ :=
    bucketsFor_inserted resolved (lookup_crowd room.le) (by rw [length_crowd]; exact room)
  rw [arrive, State.step, answer, Option.map_some]
  simp only [State.connect, resolved, rates_crowd, rate_guest, Option.map_some, Option.getD_some,
    RateLimiter.insert]
  simp only [crowd, guestConn, List.range_succ, List.map_append, List.map_singleton,
    List.replicate_succ']

theorem follow_crowd {n : Nat} (room : n ≤ rateLimitCap) :
    follow (State.step everyoneNet) (State.start everyoneNet thousandKbps)
      ((List.range n).map arrive) = some (crowd n) := by
  induction n with
  | zero => rfl
  | succ n ih =>
      rw [List.range_succ, List.map_append, follow_append, ih (Nat.le_of_lt room)]
      simp only [Option.bind_some, List.map_singleton, follow, crowd_succ room]

/-- One guest more, who holds the network's shared pair. -/
def crowded (n : Nat) : State :=
  { crowd n with
    limiter := { (crowd n).limiter with overflow := [(everyone, n)] }
    rates := (crowd n).rates ++ [125000]
    alive := (crowd n).alive ++ [guestConn n] }

/-- The crowded table after the first guest has left. -/
def thinned (n : Nat) : State := { crowded n with alive := (crowded n).alive.eraseIdx 0 }

/-- The last guest again, who now gets the first guest's place. -/
def returned (n : Nat) : State :=
  { thinned n with
    limiter := ((thinned n).limiter.remove (guest 0)).insert (guest n) ⟨n + 1, n⟩
    rates := (thinned n).rates ++ [125000]
    alive := (thinned n).alive ++
      [{ ip := guest n, limit := 125000, config := 0, buckets := n + 1 }] }

theorem crowd_busy (n : Nat) : (crowd n).limiter.idle ((crowd n).held []) = [] := by
  apply List.filter_eq_nil_iff.mpr
  intro p member
  obtain ⟨i, below, rfl⟩ := List.mem_map.mp member
  have guestAlive : guestConn i ∈ (crowd n).alive := List.mem_map.mpr ⟨i, below, rfl⟩
  have held : (crowd n).held [] i = true := State.held_of_alive guestAlive
  dsimp only
  rw [held]
  decide

theorem crowd_spills {n : Nat} (full : n = rateLimitCap) :
    (crowd n).step everyoneNet (arrive n) = some (crowded n) := by
  have resolved : (crowd n).limiter.resolve (guest n) = some (everyone, 125000) :=
    resolve_guest rfl n
  have answer : (crowd n).limiter.bucketsFor (crowd n).rates ((crowd n).held []) (guest n) n
      (guest 0) = _ :=
    bucketsFor_firstSpilled resolved (lookup_crowd full.le) (by rw [length_crowd]; exact full.ge)
      (crowd_busy n) rfl
  rw [arrive, State.step, answer, Option.map_some]
  simp only [State.connect, resolved, rates_crowd, rate_guest, Option.map_some, Option.getD_some]
  rfl

theorem alive_thinned {n : Nat} (some : 0 < n) :
    (thinned n).alive = (List.range (n - 1)).map (fun i => guestConn (i + 1)) ++ [guestConn n] := by
  obtain ⟨m, rfl⟩ := Nat.exists_eq_add_of_lt some
  simp only [thinned, crowded, crowd, Nat.zero_add, Nat.add_sub_cancel, List.range_succ_eq_map,
    List.map_cons, List.cons_append, List.eraseIdx_cons_zero, List.map_map, Function.comp_def]

theorem thinned_chosen {n : Nat} (some : 0 < n) :
    oldest ((thinned n).limiter.idle ((thinned n).held [])) (guest 0) = true := by
  have free : (thinned n).held [] 0 = false := by
    rw [State.held, Bool.or_eq_false_iff]
    refine ⟨List.any_eq_false.mpr ?_, rfl⟩
    intro c alive
    rw [decide_eq_true_eq]
    rw [alive_thinned some] at alive
    rcases List.mem_append.mp alive with other | last
    · obtain ⟨i, _, rfl⟩ := List.mem_map.mp other
      exact Nat.succ_ne_zero i
    · rw [List.mem_singleton.mp last]
      exact some.ne'
  refine List.any_eq_true.mpr ⟨(guest 0, ⟨0, 0⟩), List.mem_filter.mpr ⟨?_, ?_⟩, ?_⟩
  · exact List.mem_map.mpr ⟨0, List.mem_range.mpr some, rfl⟩
  · dsimp only
    rw [free]
    rfl
  · rw [Bool.and_eq_true]
    exact ⟨decide_eq_true rfl, List.all_eq_true.mpr fun other _ => decide_eq_true (Nat.zero_le _)⟩

theorem thinned_returns {n : Nat} (full : n = rateLimitCap) :
    (thinned n).step everyoneNet (arrive n) = some (returned n) := by
  have resolved : (thinned n).limiter.resolve (guest n) = some (everyone, 125000) :=
    resolve_guest rfl n
  have missing : (thinned n).limiter.live.lookup (guest n) = none := lookup_crowd full.le
  have size : rateLimitCap ≤ (thinned n).limiter.live.length := (full.symm.trans (length_crowd n).symm).le
  have count : (thinned n).rates.length = n + 1 := by
    rw [thinned, crowded, List.length_append, rates_crowd, List.length_singleton]
  have answer : (thinned n).limiter.bucketsFor (thinned n).rates ((thinned n).held []) (guest n) n
      (guest 0) = _ :=
    bucketsFor_evicted resolved missing size (thinned_chosen (by rw [full]; decide))
  rw [arrive, State.step, answer, Option.map_some]
  simp only [State.connect, resolved, count, rate_guest, Option.map_some, Option.getD_some]
  rfl

/-- A full table, one guest on the shared pair, a place becomes free, and the
same guest connects again. -/
def crowding : List Event :=
  (List.range rateLimitCap).map arrive ++
    [arrive rateLimitCap, .drop 0, arrive rateLimitCap]

theorem two_buckets_of_one_ip : ∃ final,
    follow (State.step everyoneNet) (State.start everyoneNet thousandKbps) crowding = some final ∧
      ∃ c ∈ final.alive, ∃ d ∈ final.alive,
        c.ip = d.ip ∧ c.config = d.config ∧ c.buckets ≠ d.buckets := by
  obtain ⟨n, full⟩ : ∃ n, n = rateLimitCap := ⟨_, rfl⟩
  refine ⟨returned n, ?_, ?_⟩
  · rw [crowding, follow_append, follow_crowd le_rfl, ← full]
    simp only [Option.bind_some, follow, crowd_spills full]
    rw [State.step, Option.bind_some]
    exact congrArg (·.bind some) (thinned_returns full)
  · have early : guestConn n ∈ (thinned n).alive := by
      rw [alive_thinned (by rw [full]; decide)]
      exact List.mem_append_right _ (List.mem_singleton.mpr rfl)
    exact ⟨_, List.mem_append_left _ early, _, List.mem_append_right _ (List.mem_singleton.mpr rfl),
      rfl, rfl, (Nat.lt_succ_self n).ne⟩

theorem one_bucket_of_two_connections : ∃ final,
    follow (State.step everyoneNet) (State.start everyoneNet thousandKbps)
        [arrive 0, arrive 0] = some final ∧
      final.alive.length = 2 ∧ final.limiter.live.length ≤ rateLimitCap ∧ final.OneBucket := by
  have first : (crowd 0).step everyoneNet (arrive 0) = some (crowd 1) := crowd_succ (by decide)
  have settled : Throughout (State.step everyoneNet) (State.Settled everyoneNet)
      (State.start everyoneNet thousandKbps) [arrive 0, arrive 0] := by
    refine throughout_cons ?_ first ⟨?_, fun _ _ => trivial⟩
    · intro net rate _ _
      rw [if_pos (.inl (by decide))]
      exact fun c alive => nomatch alive
    · intro net rate _ missing
      exact absurd missing (by decide)
  have bound := @one_bucket_per_ip everyoneNet thousandKbps [arrive 0, arrive 0] _ rfl
  exact ⟨_, rfl, rfl, bound.1, bound.2.2 settled⟩

end Crowd

end Mirage.Rate.Limiter
