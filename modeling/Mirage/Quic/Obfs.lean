import Mathlib.Data.List.Basic
import Mirage.Lib.Buffer
import Mirage.Lib.Word

/-!
The obfuscation of proxy/quic_obfs.rs. A packet goes out as a salt and the packet
under a keystream; what the kernel has merged of such packets is cleared and
moved together in its buffer, piece by piece. The extendable output of the keyed
hash is a parameter. A buffer has no value where the source would panic.
-/

namespace Mirage.Quic.Obfs
open Buffer Word

def saltLen : Nat := 8

abbrev Xof := Bytes → Bytes → Nat → UInt8

variable (xof : Xof) (key : Bytes)

/-- In blocks of 1024 bytes, from where the output has been read to. -/
def xorKeystream (stream : Nat → UInt8) (off : Nat) (data : Bytes) : Bytes :=
  if _some : data = [] then []
  else
    let n := min data.length 1024
    (data.take n).mapIdx (fun i byte => byte ^^^ stream (off + i)) ++
      xorKeystream stream (off + 1024) (data.drop n)
termination_by data.length
decreasing_by
  have long : 0 < data.length := List.length_pos_iff.mpr _some
  rw [List.length_drop]
  omega

/-- What `try_send` hands to the socket. -/
def obfuscate (salt contents : Bytes) : Bytes := salt ++ xorKeystream (xof key salt) 0 contents

/-- One turn of the loop: a salt is read, the rest of the segment cleared in place
and moved to the front. -/
def deobfsSegment (buf : Bytes) (read write seg : Nat) : Option (Bytes × Nat) :=
  if seg < saltLen then some (buf, write)
  else do
    let salt ← slice buf read (read + saltLen)
    let body ← slice buf (read + saltLen) (read + seg)
    let buf ← overwriteSlice buf (read + saltLen) (xorKeystream (xof key salt) 0 body)
    let body ← slice buf (read + saltLen) (read + seg)
    let buf ← overwriteSlice buf write body
    some (buf, write + (seg - saltLen))

def deobfsFrom (len stride : Nat) (positive : 0 < stride) (buf : Bytes) (read write : Nat) :
    Option (Bytes × Nat) :=
  if _more : read < len then
    let seg := min stride (len - read)
    (deobfsSegment xof key buf read write seg).bind fun next =>
      deobfsFrom len stride positive next.1 (read + seg) next.2
  else some (buf, write)
termination_by len - read
decreasing_by omega

def deobfsDatagram (buf : Bytes) (len stride : Nat) : Option (Bytes × Nat) :=
  let stride := if stride = 0 then len else stride
  if positive : 0 < stride then deobfsFrom xof key len stride positive buf 0 0
  else some (buf, 0)

/-- Of `quinn::udp::RecvMeta`, the part that says how a buffer is split. -/
structure RecvMeta where
  len : Nat
  stride : Nat
  deriving DecidableEq

/-- `poll_recv`, on one buffer. -/
def receive (buf : Bytes) (info : RecvMeta) : Option (Bytes × RecvMeta) :=
  if info.len = 0 then some (buf, info)
  else
    let stride := if info.stride = 0 then info.len else info.stride
    (deobfsDatagram xof key buf info.len stride).map fun next =>
      (next.1, ⟨next.2, stride - saltLen⟩)

def clear (seg : Bytes) : Bytes :=
  if seg.length < saltLen then []
  else xorKeystream (xof key (seg.take saltLen)) 0 (seg.drop saltLen)

section Keystream

variable {stream : Nat → UInt8}

theorem xorKeystream_eq (off : Nat) (data : Bytes) :
    xorKeystream stream off data = data.mapIdx fun i byte => byte ^^^ stream (off + i) := by
  induction off, data using xorKeystream.induct with
  | case1 off => rw [xorKeystream, dif_pos rfl]; rfl
  | case2 off data some n ih =>
      rw [xorKeystream, dif_neg some]
      dsimp only
      rw [ih]
      conv_rhs => rw [← List.take_append_drop n data, List.mapIdx_append]
      congr 1
      rcases Nat.lt_or_ge 1024 data.length with long | short
      · have block : (data.take n).length = 1024 := by
          rw [List.length_take]
          omega
        rw [block]
        congr 1
        funext i byte
        rw [Nat.add_assoc, Nat.add_comm 1024]
      · have nothing : data.drop n = [] := List.drop_of_length_le (by omega)
        rw [nothing]
        rfl

@[simp] theorem xorKeystream_length (data : Bytes) :
    (xorKeystream stream 0 data).length = data.length := by
  rw [xorKeystream_eq, List.length_mapIdx]

theorem xorKeystream_twice (data : Bytes) :
    xorKeystream stream 0 (xorKeystream stream 0 data) = data := by
  rw [xorKeystream_eq, xorKeystream_eq]
  apply List.ext_getElem?
  intro i
  rw [List.getElem?_mapIdx, List.getElem?_mapIdx, Option.map_map]
  cases data[i]? with
  | none => rfl
  | some byte =>
      rw [Option.map_some, Function.comp_apply, UInt8.xor_assoc, UInt8.xor_self, UInt8.xor_zero]

end Keystream

section Bounds

variable {xof key} {buf buf' out : Bytes} {read write : Nat}

/-- After `read` bytes of the buffer: what they carried stands at the front, and
what is ahead is as it was. -/
structure Compacted (buf buf' : Bytes) (read : Nat) (out : Bytes) : Prop where
  length : buf'.length = buf.length
  behind : out.length ≤ read
  output : buf'.take out.length = out
  ahead : buf'.drop read = buf.drop read

theorem Compacted.start (buf : Bytes) : Compacted buf buf 0 [] :=
  ⟨rfl, Nat.le_refl _, rfl, rfl⟩

theorem Compacted.skip (kept : Compacted buf buf' read out) (seg : Nat) :
    Compacted buf buf' (read + seg) out where
  length := kept.length
  behind := Nat.le_add_right_of_le kept.behind
  output := kept.output
  ahead := by rw [← List.drop_drop, ← List.drop_drop, kept.ahead]

/-- The parts of a buffer: the output, what is left over, the segment and the rest. -/
theorem Compacted.parts (kept : Compacted buf buf' read out) {seg : Nat}
    (within : read + seg ≤ buf.length) :
    ∃ gap, buf' = out ++ gap ++ (buf.drop read).take seg ++ buf.drop (read + seg) ∧
      (out ++ gap).length = read := by
  have front : (buf'.take read).length = read := by
    rw [List.length_take_of_le]
    rw [kept.length]
    omega
  have start : (buf'.take read).take out.length = out := by
    rw [List.take_take, Nat.min_eq_left kept.behind, kept.output]
  refine ⟨(buf'.take read).drop out.length, ?_, ?_⟩
  · have head : out ++ (buf'.take read).drop out.length = buf'.take read := by
      conv_lhs => enter [1]; rw [← start]
      exact List.take_append_drop _ _
    rw [head, ← List.drop_drop, List.append_assoc, List.take_append_drop, ← kept.ahead,
      List.take_append_drop]
  · conv_lhs => enter [1, 1]; rw [← start]
    rw [List.take_append_drop, front]

/-- One turn: nothing is out of bounds, and the segment's content joins the output. -/
theorem deobfsSegment_compacted (kept : Compacted buf buf' read out) {seg : Nat}
    (within : read + seg ≤ buf.length) :
    ∃ next, deobfsSegment xof key buf' read out.length seg =
        some (next, (out ++ clear xof key ((buf.drop read).take seg)).length) ∧
      Compacted buf next (read + seg) (out ++ clear xof key ((buf.drop read).take seg)) := by
  have size : ((buf.drop read).take seg).length = seg := by
    rw [List.length_take, List.length_drop]
    omega
  obtain ⟨gap, whole, front⟩ := kept.parts within
  generalize (buf.drop read).take seg = piece at size whole
  rw [deobfsSegment, clear, size]
  by_cases short : seg < saltLen
  · rw [if_pos short, if_pos short, List.append_nil]
    exact ⟨buf', rfl, kept.skip seg⟩
  · rw [if_neg short, if_neg short]
    obtain ⟨salt, body, rfl, salted⟩ : ∃ salt body, piece = salt ++ body ∧
        salt.length = saltLen :=
      ⟨piece.take saltLen, piece.drop saltLen, (List.take_append_drop _ _).symm,
        List.length_take_of_le (by omega)⟩
    rw [List.length_append, salted] at size
    rw [List.take_left' salted, List.drop_left' salted]
    have plain : (xorKeystream (xof key salt) 0 body).length = body.length :=
      xorKeystream_length body
    obtain ⟨clear, same⟩ : ∃ clear, xorKeystream (xof key salt) 0 body = clear := ⟨_, rfl⟩
    rw [same] at plain ⊢
    generalize tail : buf.drop (read + seg) = back at whole
    subst whole
    have saltEnd : read + saltLen = (out ++ gap ++ salt).length := by
      rw [List.length_append, front, salted]
    have bodyEnd : read + seg = (out ++ gap ++ salt).length + body.length := by
      rw [List.length_append, front]
      omega
    have readSalt : slice (out ++ gap ++ (salt ++ body) ++ back) read (read + saltLen) =
        some salt := by
      have taken := slice_middle (out ++ gap) salt (body ++ back)
      rw [front, salted] at taken
      rwa [List.append_assoc (out ++ gap), List.append_assoc salt, ← List.append_assoc]
    have readBody : slice (out ++ gap ++ (salt ++ body) ++ back) (read + saltLen) (read + seg) =
        some body := by
      rw [saltEnd, bodyEnd, ← List.append_assoc (out ++ gap)]
      exact slice_middle _ _ _
    have cleared : overwriteSlice (out ++ gap ++ (salt ++ body) ++ back) (read + saltLen) clear =
        some (out ++ gap ++ salt ++ clear ++ back) := by
      rw [saltEnd, ← List.append_assoc (out ++ gap)]
      exact overwriteSlice_middle _ _ plain
    have readClear : slice (out ++ gap ++ salt ++ clear ++ back) (read + saltLen) (read + seg) =
        some clear := by
      rw [saltEnd, bodyEnd, ← plain]
      exact slice_middle _ _ _
    -- The content may overlap its own place.
    have room : out ++ gap ++ salt ++ clear ++ back =
        out ++ (gap ++ salt ++ clear).take clear.length ++
          ((gap ++ salt ++ clear).drop clear.length ++ back) := by
      calc out ++ gap ++ salt ++ clear ++ back
        _ = out ++ (gap ++ salt ++ clear) ++ back := by simp only [List.append_assoc]
        _ = out ++ ((gap ++ salt ++ clear).take clear.length ++
              (gap ++ salt ++ clear).drop clear.length) ++ back := by rw [List.take_append_drop]
        _ = _ := by simp only [List.append_assoc]
    have size' : ((gap ++ salt ++ clear).take clear.length).length = clear.length := by
      rw [List.length_take, List.length_append]
      omega
    have moved : overwriteSlice (out ++ gap ++ salt ++ clear ++ back) out.length clear =
        some (out ++ clear ++ ((gap ++ salt ++ clear).drop clear.length ++ back)) := by
      rw [room]
      exact overwriteSlice_middle _ _ size'.symm
    simp only [bind, Option.bind, readSalt, readBody, same, cleared, readClear, moved]
    have content : seg - saltLen = clear.length := by omega
    have spread := congrArg List.length room
    have total : (out ++ clear ++ (gap ++ salt ++ clear).drop clear.length).length =
        read + seg := by
      simp only [List.length_append, size'] at spread front bodyEnd ⊢
      omega
    refine ⟨_, by rw [content, List.length_append], ?_, ?_, ?_, ?_⟩
    · rw [← List.append_assoc, List.length_append, total, ← tail, List.length_drop]
      omega
    · rw [← total, @List.length_append _ _ (List.drop _ _)]
      exact Nat.le_add_right _ _
    · exact List.take_left' rfl
    · rw [← List.append_assoc, List.drop_left' total, tail]

/-- The whole loop: by induction over the segments, with both offsets in the state. -/
theorem deobfsFrom_compacted {len stride : Nat} (positive : 0 < stride)
    (within : len ≤ buf.length) (reached : read ≤ len) (kept : Compacted buf buf' read out) :
    ∃ next, deobfsFrom xof key len stride positive buf' read out.length =
        some (next, (out ++ ((pieces stride ((buf.take len).drop read)).map
          (clear xof key)).flatten).length) ∧
      Compacted buf next len (out ++ ((pieces stride ((buf.take len).drop read)).map
        (clear xof key)).flatten) := by
  have size : ((buf.take len).drop read).length = len - read := by
    rw [List.length_drop, List.length_take_of_le within]
  induction left : len - read using Nat.strong_induction_on generalizing read buf' out with
  | _ left ih =>
      rw [deobfsFrom]
      by_cases more : read < len
      · rw [dif_pos more]
        dsimp only
        have here : ((buf.take len).drop read).take stride =
            (buf.drop read).take (min stride (len - read)) := by
          rw [List.drop_take, List.take_take]
        have some : (buf.take len).drop read ≠ [] := by
          apply List.length_pos_iff.mp
          omega
        obtain ⟨next, turned, turn⟩ :=
          @deobfsSegment_compacted xof key _ _ _ _ kept (min stride (len - read)) (by omega)
        rw [turned, Option.bind_some, pieces_cut some positive, here, List.map_cons,
          List.flatten_cons, ← List.append_assoc]
        have rest : ((buf.take len).drop read).drop stride =
            (buf.take len).drop (read + min stride (len - read)) := by
          rw [List.drop_drop]
          rcases Nat.le_total stride (len - read) with inner | final
          · rw [Nat.min_eq_left inner]
          · rw [Nat.min_eq_right final, List.drop_of_length_le, List.drop_of_length_le]
            · rw [List.length_take_of_le within]
              omega
            · rw [List.length_take_of_le within]
              omega
        rw [rest]
        refine ih (len - (read + min stride (len - read))) (by omega) (by omega) turn ?_ rfl
        rw [List.length_drop, List.length_take_of_le within]
      · have done : read = len := by omega
        have nothing : (buf.take len).drop read = [] := by
          apply List.length_eq_zero_iff.mp
          omega
        rw [dif_neg more, nothing, pieces_nil, List.map_nil, List.flatten_nil, List.append_nil]
        exact ⟨buf', rfl, done ▸ kept⟩

/-- The stride that is in force. -/
def RecvMeta.step (info : RecvMeta) : Nat := if info.stride = 0 then info.len else info.stride

def contents (xof : Xof) (key : Bytes) (buf : Bytes) (info : RecvMeta) : List Bytes :=
  (pieces info.step (buf.take info.len)).map (clear xof key)

theorem receive_eq {info : RecvMeta} (within : info.len ≤ buf.length) :
    ∃ next len, receive xof key buf info = some (next, ⟨len, if info.len = 0 then info.stride
        else info.step - saltLen⟩) ∧
      len = (contents xof key buf info).flatten.length ∧
      Compacted buf next info.len (contents xof key buf info).flatten := by
  rw [receive]
  by_cases nothing : info.len = 0
  · obtain ⟨len, stride⟩ := info
    dsimp only at nothing
    subst nothing
    rw [if_pos rfl, if_pos rfl, contents, List.take_zero, pieces_nil, List.map_nil,
      List.flatten_nil]
    exact ⟨buf, 0, rfl, rfl, .start buf⟩
  · have positive : 0 < info.step := by
      rw [RecvMeta.step]
      split <;> omega
    rw [if_neg nothing, if_neg nothing]
    change ∃ next len, (deobfsDatagram xof key buf info.len info.step).map _ = _ ∧ _
    have kept : (if info.step = 0 then info.len else info.step) = info.step :=
      if_neg (Nat.ne_of_gt positive)
    simp only [deobfsDatagram, kept]
    rw [dif_pos positive]
    obtain ⟨next, run, compacted⟩ :=
      @deobfsFrom_compacted xof key _ _ _ 0 _ _ positive within (Nat.zero_le _) (.start buf)
    rw [List.drop_zero, List.nil_append] at run compacted
    rw [List.length_nil] at run
    exact ⟨next, _, by rw [run]; rfl, rfl, compacted⟩

end Bounds

section Split

variable {xof key} {size : Nat}

theorem clear_length (seg : Bytes) : (clear xof key seg).length = seg.length - saltLen := by
  rw [clear]
  split
  · rw [List.length_nil]
    omega
  · rw [xorKeystream_length, List.length_drop]

theorem clear_obfuscate {salt : Bytes} (salted : salt.length = saltLen) (payload : Bytes) :
    clear xof key (obfuscate xof key salt payload) = payload := by
  have long : ¬ (obfuscate xof key salt payload).length < saltLen := by
    rw [obfuscate, List.length_append, salted]
    omega
  rw [clear, if_neg long, obfuscate, List.take_left' salted, List.drop_left' salted,
    xorKeystream_twice]

theorem regular_clear {parts : List Bytes} (regular : Regular size parts) :
    Regular (size - saltLen) (parts.map (clear xof key)) := by
  apply regular.map
  · intro part full
    rw [clear_length, full]
  · intro part short
    rw [clear_length]
    exact Nat.sub_le_sub_right short _

end Split

/-- What the caller of `poll_recv` makes of a buffer: `len` bytes in pieces of `stride`. -/
def delivered (buf : Bytes) (info : RecvMeta) : List Bytes :=
  pieces info.stride (buf.take info.len)

/-- A buffer is cleared within its bounds; the caller gets what its segments carry,
in order, and a segment without content leaves no trace. Merged packets are got
back as they were sent, except those that are empty. -/
theorem gro_segments_recovered (xof : Xof) (key : Bytes) :
    (∀ (packets : List (Bytes × Bytes)) (stride : Nat) (spare : Bytes),
      (∀ packet ∈ packets, packet.1.length = saltLen) →
      Regular stride (packets.map fun packet => obfuscate xof key packet.1 packet.2) →
      let merged := (packets.map fun packet => obfuscate xof key packet.1 packet.2).flatten
      ∃ next info, receive xof key (merged ++ spare) ⟨merged.length, stride⟩ =
          some (next, info) ∧
        next.take info.len = (packets.map Prod.snd).flatten ∧
        delivered next info = (packets.map Prod.snd).filter fun payload => !payload.isEmpty) ∧
    (∀ (buf : Bytes) (info : RecvMeta), info.len ≤ buf.length →
      ∃ next info', receive xof key buf info = some (next, info') ∧
        next.length = buf.length ∧ info'.len ≤ info.len ∧
        next.drop info.len = buf.drop info.len ∧
        (info'.stride = 0 → info'.len = 0) ∧
        next.take info'.len = (contents xof key buf info).flatten ∧
        delivered next info' =
          (contents xof key buf info).filter fun payload => !payload.isEmpty) := by
  have general : ∀ (buf : Bytes) (info : RecvMeta), info.len ≤ buf.length →
      ∃ next info', receive xof key buf info = some (next, info') ∧
        next.length = buf.length ∧ info'.len ≤ info.len ∧
        next.drop info.len = buf.drop info.len ∧
        (info'.stride = 0 → info'.len = 0) ∧
        next.take info'.len = (contents xof key buf info).flatten ∧
        delivered next info' =
          (contents xof key buf info).filter fun payload => !payload.isEmpty := by
    intro buf info within
    obtain ⟨next, _, received, rfl, compacted⟩ := @receive_eq xof key buf info within
    have output : next.take (contents xof key buf info).flatten.length =
        (contents xof key buf info).flatten := compacted.output
    have regular : Regular (if info.len = 0 then info.stride else info.step - saltLen)
        (contents xof key buf info) := by
      split
      · rename_i nothing
        rw [contents, nothing, List.take_zero, pieces_nil, List.map_nil]
        exact .nil
      · exact regular_clear (regular_pieces _)
    refine ⟨next, _, received, compacted.length, compacted.behind, compacted.ahead, ?_, output, ?_⟩
    · intro zero
      dsimp only at zero
      rw [zero] at regular
      rw [flatten_of_regular_zero regular, List.length_nil]
    · rw [delivered, output]
      exact pieces_flatten regular
  refine ⟨?_, general⟩
  intro packets stride spare salted regular merged
  have within : merged.length ≤ (merged ++ spare).length := by
    rw [List.length_append]
    exact Nat.le_add_right _ _
  obtain ⟨next, info, received, -, -, -, -, output, split⟩ :=
    general (merged ++ spare) ⟨merged.length, stride⟩ within
  have long : ∀ packet ∈ packets, saltLen ≤ (obfuscate xof key packet.1 packet.2).length := by
    intro packet member
    rw [obfuscate, List.length_append, salted packet member]
    exact Nat.le_add_right _ _
  -- No stride: then nothing has been merged.
  have step : RecvMeta.step ⟨merged.length, stride⟩ = stride := by
    rw [RecvMeta.step]
    split
    · rename_i zero
      have zero' : stride = 0 := zero
      rw [zero'] at regular ⊢
      have empty : merged = [] := flatten_of_regular_zero regular
      rw [empty]
      rfl
    · rfl
  have found : contents xof key (merged ++ spare) ⟨merged.length, stride⟩ =
      packets.map Prod.snd := by
    -- A packet has its salt in front, so that none of the pieces is empty.
    have all : (packets.map fun packet => obfuscate xof key packet.1 packet.2).filter
        (fun part => !part.isEmpty) =
          packets.map fun packet => obfuscate xof key packet.1 packet.2 := by
      apply List.filter_eq_self.mpr
      intro part member
      obtain ⟨packet, inside, rfl⟩ := List.mem_map.mp member
      have positive := long packet inside
      cases obfuscated : obfuscate xof key packet.1 packet.2 with
      | nil =>
          rw [obfuscated] at positive
          exact absurd positive (by decide)
      | cons _ _ => rfl
    rw [contents, step, List.take_left, pieces_flatten regular, all, List.map_map]
    apply List.map_congr_left
    intro packet member
    exact clear_obfuscate (salted packet member) packet.2
  rw [found] at output split
  exact ⟨next, info, received, output, split⟩

/-- A packet without content, merged as the last one, is lost. -/
theorem empty_packet_lost :
    let xof : Xof := fun _ _ _ => 0
    let salt : Bytes := List.replicate 8 5
    let packets : List (Bytes × Bytes) := [(salt, [1]), (salt, [])]
    let parts := packets.map fun packet => obfuscate xof [] packet.1 packet.2
    Regular 9 parts ∧
      (receive xof [] parts.flatten ⟨parts.flatten.length, 9⟩).map
        (fun received => delivered received.1 received.2) = some [[1]] ∧
      packets.map Prod.snd = [[1], []] := by
  intro xof salt packets parts
  have sent : parts = [salt ++ [1], salt] := by decide +kernel
  refine ⟨?_, by decide +kernel, rfl⟩
  rw [sent]
  exact .cons (by decide) (.last (by decide))

end Mirage.Quic.Obfs
