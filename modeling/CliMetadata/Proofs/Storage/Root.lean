import CliMetadata.Module
import CliMetadata.Proofs.Running
import CliMetadata.Proofs.Storage.StreamHeader
import CliMetadata.Proofs.Text.Utf8

set_option autoImplicit false

namespace CliMetadata

namespace Reader

variable {α β : Type}

theorem number_moves {width n : Nat} {c c' : Cursor} (ran : number width c = .ok n c') :
    n = Bytes.number c.data c.pos width ∧ c'.data = c.data ∧ c'.pos = c.pos + width := by
  unfold number at ran
  split at ran
  next value next read =>
    cases ran
    obtain ⟨rfl, _, rfl⟩ := Bytes.readAt_ok read
    exact ⟨rfl, rfl, rfl⟩
  next => cases ran

theorem bytes_moves {length : Nat} {data : ByteArray} {c c' : Cursor}
    (ran : bytes length c = .ok data c') : c'.data = c.data ∧ c'.pos = c.pos + length := by
  unfold bytes at ran
  split at ran
  next => cases ran; exact ⟨rfl, rfl⟩
  next => cases ran

@[simp] theorem advanceBy_ok {step : Nat} {c c' : Cursor} :
    advanceBy step c = .ok () c' ↔ step ≤ c.remaining ∧ c' = c.move step := by
  unfold advanceBy
  split
  next fits => simp [fits, eq_comm]
  next beyond => simp [beyond]

theorem Spells.andThen {x : Reader α} {bytes rest : List UInt8} {a : α} {c : Cursor}
    (spells : x.Spells bytes a) (unread : c.unread = bytes ++ rest) (f : α → Reader β) :
    ∃ d : Cursor, d.data = c.data ∧ d.unread = rest ∧ (x >>= f) c = f a d :=
  ⟨c.move bytes.length, rfl, Cursor.unread_move_append unread,
    bind_after_ok (spells c rest unread) f⟩

end Reader

namespace StorageRoot

open Reader

theorem nextStream_ok {before : List StreamHeader} {c c' : Cursor} {h : StreamHeader} :
    nextStream before c = .ok h c' ↔
      StreamHeader.readAt c.data c.pos = .ok h ∧ h.encodedSize ≤ c.remaining ∧
        h.InReach c.data.size ∧ (∀ other ∈ before, other.name ≠ h.name) ∧
        c' = c.move h.encodedSize := by
  rw [nextStream, get_bind]
  cases read : StreamHeader.readAt c.data c.pos with
  | error e =>
    constructor
    · intro ran
      cases ran
    · rintro ⟨⟨⟩, _⟩
  | ok header =>
    have fresh : before.any (·.name == header.name) = false ↔
        ∀ other ∈ before, other.name ≠ header.name := by simp
    constructor
    · intro ran
      obtain ⟨_, _, ⟨⟩, ran⟩ := bind_ok.1 ran
      obtain ⟨_, _, advanced, ran⟩ := bind_ok.1 ran
      obtain ⟨room, rfl⟩ := advanceBy_ok.1 advanced
      split at ran
      next within =>
        split at ran
        next => cases ran
        next new =>
          cases ran
          exact ⟨rfl, room, within, fresh.1 (Bool.not_eq_true _ ▸ new), rfl⟩
      next => cases ran
    · rintro ⟨⟨⟩, room, within, new, rfl⟩
      refine bind_ok.2 ⟨_, c, rfl, bind_ok.2 ⟨(), _, advanceBy_ok.2 ⟨room, rfl⟩, ?_⟩⟩
      rw [if_pos (show _ ∧ _ from within)]
      simp only [fresh.2 new, Bool.false_eq_true, if_false]
      rfl

theorem nextStream_beyond (before : List StreamHeader) {c : Cursor} {h : StreamHeader}
    (read : StreamHeader.readAt c.data c.pos = .ok h) (room : h.encodedSize ≤ c.remaining)
    (beyond : ¬h.InReach c.data.size) : nextStream before c =
      .error (.malformed (.streamRange h.name h.offset h.size)) (c.move h.encodedSize) := by
  rw [nextStream, get_bind, read]
  refine (bind_after_ok (advanceBy_ok.2 ⟨room, rfl⟩) _).trans ?_
  rw [if_neg (show ¬(_ ∧ _) from beyond)]
  rfl

section
variable {streams : List StreamHeader} {c : Cursor} {rest : List UInt8}

theorem room_of_unread {h : StreamHeader} (unread : c.unread = h.written ++ rest) :
    h.encodedSize ≤ c.remaining := by
  rw [Cursor.remaining_eq, unread, List.length_append, StreamHeader.length_written]
  omega

theorem nextStreams_written {before : List StreamHeader}
    (unread : c.unread = streams.flatMap (·.written) ++ rest) (storable : ∀ h ∈ streams, h.Storable)
    (inReach : ∀ h ∈ streams, h.InReach c.data.size)
    (distinct : ((before ++ streams).map (·.name)).Nodup) :
    ∃ d : Cursor, d.data = c.data ∧ d.unread = rest ∧ ∀ more,
      nextStreams (streams.length + more) before c = nextStreams more (before ++ streams) d := by
  induction streams generalizing before c with
  | nil => exact ⟨c, rfl, unread, fun more => by simp⟩
  | cons h streams ih =>
    rw [List.flatMap_cons, List.append_assoc] at unread
    have fresh : ∀ other ∈ before, other.name ≠ h.name := by
      rw [List.map_append, List.nodup_append] at distinct
      intro other member
      exact distinct.2.2 _ (List.mem_map_of_mem member) _ (List.mem_map_of_mem List.mem_cons_self)
    have next := nextStream_ok.2 ⟨(storable h List.mem_cons_self).readAt_written unread,
      room_of_unread unread, inReach h List.mem_cons_self, fresh, rfl⟩
    have moved : (c.move h.encodedSize).unread = streams.flatMap (·.written) ++ rest := by
      rw [← StreamHeader.length_written]
      exact Cursor.unread_move_append unread
    rw [List.append_cons] at distinct ⊢
    obtain ⟨d, same, left, others⟩ := ih moved
      (fun other member => storable other (List.mem_cons_of_mem _ member))
      (fun other member => inReach other (List.mem_cons_of_mem _ member)) distinct
    refine ⟨d, same, left, fun more => ?_⟩
    rw [List.length_cons, Nat.add_right_comm]
    exact (bind_after_ok next _).trans (others more)

theorem nextStreams_beyond {inFront behind : List StreamHeader} {h : StreamHeader}
    (unread : c.unread = streams.flatMap (·.written) ++ rest) (storable : ∀ h ∈ streams, h.Storable)
    (distinct : (streams.map (·.name)).Nodup) (split : streams = inFront ++ h :: behind)
    (inReach : ∀ h ∈ inFront, h.InReach c.data.size) (beyond : ¬h.InReach c.data.size) :
    ∃ c', nextStreams streams.length [] c =
      .error (.malformed (.streamRange h.name h.offset h.size)) c' := by
  subst split
  rw [List.flatMap_append, List.flatMap_cons, List.append_assoc, List.append_assoc] at unread
  have apart : ((([] : List StreamHeader) ++ inFront).map (·.name)).Nodup :=
    distinct.sublist ((List.sublist_append_left ..).map _)
  obtain ⟨d, same, left, others⟩ := nextStreams_written unread
    (fun other member => storable other (List.mem_append_left _ member)) inReach apart
  have next := nextStream_beyond inFront
    ((storable h (List.mem_append_right _ List.mem_cons_self)).readAt_written left)
    (room_of_unread left) (same ▸ beyond)
  refine ⟨d.move h.encodedSize, ?_⟩
  rw [List.length_append, List.length_cons, others]
  exact bind_after_error next _

end

theorem nextStreams_ok {count : Nat} {before streams : List StreamHeader} {c c' : Cursor}
    (ran : nextStreams count before c = .ok streams c')
    (distinct : (before.map (·.name)).Nodup) :
    ∃ further, streams = before ++ further ∧ further.length = count ∧
      (∀ h ∈ further, h.InReach c.data.size) ∧ (streams.map (·.name)).Nodup := by
  induction count generalizing before c with
  | zero =>
    cases ran
    exact ⟨[], by simp, rfl, by simp, distinct⟩
  | succ count ih =>
    obtain ⟨h, _, next, ran⟩ := bind_ok.1 ran
    obtain ⟨_, _, within, fresh, rfl⟩ := nextStream_ok.1 next
    have still : ((before ++ [h]).map (·.name)).Nodup := by
      rw [List.map_append, List.nodup_append]
      refine ⟨distinct, by simp, fun name member other single => ?_⟩
      obtain ⟨earlier, inside, rfl⟩ := List.mem_map.1 member
      obtain rfl := List.mem_singleton.1 single
      exact fresh earlier inside
    obtain ⟨further, rfl, length, others, nodup⟩ := ih ran still
    refine ⟨h :: further, by simp, by simp [length], ?_, nodup⟩
    exact List.forall_mem_cons.2 ⟨within, others⟩

def written (root : StorageRoot) : List UInt8 :=
  let text := root.version.toByteArray.data.toList
  Bytes.written 4 root.signature ++ (Bytes.written 2 root.majorVersion ++
    (Bytes.written 2 root.minorVersion ++ (Bytes.written 4 root.reserved ++
    (Bytes.written 4 root.versionLength ++
    ((text ++ List.replicate (root.versionLength - text.length) 0) ++
    (Bytes.written 2 root.flags ++ (Bytes.written 2 root.streams.length ++
    root.streams.flatMap (·.written))))))))

structure Storable (root : StorageRoot) (size : Nat) : Prop where
  signature : root.signature = magic
  majorVersion : root.majorVersion < Bytes.span 2
  minorVersion : root.minorVersion < Bytes.span 2
  reserved : root.reserved < Bytes.span 4
  version : '\x00' ∉ root.version.toList
  versionFits : root.version.utf8ByteSize ≤ root.versionLength
  versionLength : root.versionLength ≤ 256
  flags : root.flags < Bytes.span 2
  some : root.streams ≠ []
  few : root.streams.length ≤ 65535
  streams : ∀ h ∈ root.streams, h.Storable
  distinct : (root.streams.map (·.name)).Nodup
  within : ∀ h ∈ root.streams, h.offset + h.size ≤ size

theorem version_padded {text : String} (plain : '\x00' ∉ text.toList) (padding : Nat) :
    Utf8.decodeLossy ((text.toByteArray.data.toList ++ List.replicate padding 0).takeWhile
      (· != 0)) = text := by
  have noZero : ∀ b ∈ text.toByteArray.data.toList, (b != 0) = true := by
    intro b member
    rw [bne_iff_ne]
    exact fun zero => Utf8.zero_not_mem_bytes plain (zero ▸ member)
  rw [List.takeWhile_append_of_pos noZero, List.takeWhile_replicate]
  simp [Utf8.decodeLossy_toByteArray]

theorem reader_written {root : StorageRoot} {size : Nat} {c : Cursor} {rest : List UInt8}
    (storable : root.Storable size) (unread : c.unread = root.written ++ rest) :
    ∃ d : Cursor, d.data = c.data ∧ d.unread = root.streams.flatMap (·.written) ++ rest ∧
      reader c = (do return { root with streams := ← nextStreams root.streams.length [] }) d := by
  let text := root.version.toByteArray.data.toList
  let field := text ++ List.replicate (root.versionLength - text.length) 0
  have size : text.length = root.version.utf8ByteSize := by simp [text]
  have length : field.length = root.versionLength := by
    have := storable.versionFits
    simp only [field, List.length_append, List.length_replicate]
    omega
  have short : ¬maxVersionLength < root.versionLength := Nat.not_lt.2 storable.versionLength
  have lengthFits : root.versionLength < Bytes.span 4 :=
    Nat.lt_of_le_of_lt storable.versionLength (by decide)
  have countFits : root.streams.length < Bytes.span 2 := Nat.lt_succ_of_le storable.few
  have some : root.streams.length ≠ 0 := fun none =>
    storable.some (List.length_eq_zero_iff.1 none)
  have spelledField : (bytes root.versionLength).Spells field field.toByteArray :=
    (takes_bytes _).spells fun _ => ⟨length, by simp⟩
  have decoded : Utf8.decodeLossy (field.toByteArray.toList.takeWhile (· != 0)) = root.version := by
    rw [toList_eq, List.data_toByteArray]
    exact version_padded storable.version _
  have start : ∀ {n}, n < Bytes.span 2 → (number 2).Spells (Bytes.written 2 n) n :=
    fun fits => spells_number (by decide) fits
  have wide : ∀ {n}, n < Bytes.span 4 → (number 4).Spells (Bytes.written 4 n) n :=
    fun fits => spells_number (by decide) fits
  rw [written] at unread
  simp only [List.append_assoc] at unread
  unfold reader
  obtain ⟨c₁, same₁, unread, ran⟩ := (wide (storable.signature ▸ by decide)).andThen unread _
  rw [ran]
  simp only [storable.signature, ne_eq, not_true_eq_false, if_false]
  obtain ⟨c₂, same₂, unread, ran⟩ := (start storable.majorVersion).andThen unread _
  rw [ran]
  obtain ⟨c₃, same₃, unread, ran⟩ := (start storable.minorVersion).andThen unread _
  rw [ran]
  obtain ⟨c₄, same₄, unread, ran⟩ := (wide storable.reserved).andThen unread _
  rw [ran]
  obtain ⟨c₅, same₅, unread, ran⟩ := (wide lengthFits).andThen unread _
  rw [ran]
  simp only [short, if_false]
  rw [← List.append_assoc] at unread
  obtain ⟨c₆, same₆, unread, ran⟩ := spelledField.andThen unread _
  rw [ran]
  obtain ⟨c₇, same₇, unread, ran⟩ := (start storable.flags).andThen unread _
  rw [ran]
  obtain ⟨c₈, same₈, unread, ran⟩ := (start countFits).andThen unread _
  rw [ran]
  simp only [some, if_false]
  refine ⟨c₈, ?_, unread, ?_⟩
  · rw [same₈, same₇, same₆, same₅, same₄, same₃, same₂, same₁]
  · rw [decoded, ← storable.signature]

theorem unread_written (root : StorageRoot) (rest : List UInt8) :
    ({ data := (root.written ++ rest).toByteArray } : Cursor).unread = root.written ++ rest := by
  simp

theorem read_written {root : StorageRoot} {rest : List UInt8}
    (storable : root.Storable (root.written ++ rest).length)
    (short : ∀ h ∈ root.streams, h.offset + h.size < 0x100000000) :
    read (root.written ++ rest).toByteArray = .ok root := by
  obtain ⟨d, same, unread, ran⟩ := reader_written storable (unread_written root rest)
  have inReach : ∀ h ∈ root.streams, h.InReach d.data.size := by
    intro h member
    refine ⟨short h member, ?_⟩
    rw [same, List.size_toByteArray]
    exact storable.within h member
  have distinct : ((([] : List StreamHeader) ++ root.streams).map (·.name)).Nodup :=
    storable.distinct
  obtain ⟨c', -, -, streams⟩ := nextStreams_written unread storable.streams inReach distinct
  refine runOn_ok.2 ⟨c', ran.trans (bind_after_ok (streams 0) _)⟩

theorem read_written_beyond {root : StorageRoot} {rest : List UInt8}
    (storable : root.Storable (root.written ++ rest).length)
    {inFront behind : List StreamHeader} {h : StreamHeader}
    (split : root.streams = inFront ++ h :: behind)
    (short : ∀ other ∈ inFront, other.offset + other.size < 0x100000000)
    (large : 0x100000000 ≤ h.offset + h.size) :
    read (root.written ++ rest).toByteArray =
      .error (.malformed (.streamRange h.name h.offset h.size)) := by
  obtain ⟨d, same, unread, ran⟩ := reader_written storable (unread_written root rest)
  have inReach : ∀ other ∈ inFront, other.InReach d.data.size := by
    intro other member
    refine ⟨short other member, ?_⟩
    rw [same, List.size_toByteArray]
    exact storable.within other (split ▸ List.mem_append_left _ member)
  obtain ⟨c', failed⟩ := nextStreams_beyond unread storable.streams storable.distinct split inReach
    fun inReach => absurd inReach.1 (Nat.not_lt.2 large)
  exact runOn_error (ran.trans (bind_after_error failed _))

theorem reader_ok {data : ByteArray} {root : StorageRoot} {c' : Cursor}
    (ran : reader { data } = .ok root c') :
    root.versionLength = Bytes.number data 12 4 ∧ ∃ c, c.data = data ∧
      nextStreams (Bytes.number data (18 + root.versionLength) 2) [] c = .ok root.streams c' := by
  unfold reader at ran
  obtain ⟨signature, c₁, taken, ran⟩ := bind_ok.1 ran
  obtain ⟨_, same₁, pos₁⟩ := number_moves taken
  split at ran
  next => cases ran
  obtain ⟨majorVersion, c₂, taken, ran⟩ := bind_ok.1 ran
  obtain ⟨_, same₂, pos₂⟩ := number_moves taken
  obtain ⟨minorVersion, c₃, taken, ran⟩ := bind_ok.1 ran
  obtain ⟨_, same₃, pos₃⟩ := number_moves taken
  obtain ⟨reserved, c₄, taken, ran⟩ := bind_ok.1 ran
  obtain ⟨_, same₄, pos₄⟩ := number_moves taken
  obtain ⟨versionLength, c₅, taken, ran⟩ := bind_ok.1 ran
  obtain ⟨lengthRead, same₅, pos₅⟩ := number_moves taken
  split at ran
  next => cases ran
  obtain ⟨text, c₆, taken, ran⟩ := bind_ok.1 ran
  obtain ⟨same₆, pos₆⟩ := bytes_moves taken
  obtain ⟨flags, c₇, taken, ran⟩ := bind_ok.1 ran
  obtain ⟨_, same₇, pos₇⟩ := number_moves taken
  obtain ⟨count, c₈, taken, ran⟩ := bind_ok.1 ran
  obtain ⟨counted, same₈, _⟩ := number_moves taken
  split at ran
  next => cases ran
  obtain ⟨streams, _, taken, ran⟩ := bind_ok.1 ran
  cases ran
  have same : c₄.data = data := by rw [same₄, same₃, same₂, same₁]
  have still : c₇.data = data := by rw [same₇, same₆, same₅, same]
  have before : c₄.pos = 12 := by simp only at pos₁; omega
  have behind : c₇.pos = 18 + versionLength := by omega
  rw [same, before] at lengthRead
  refine ⟨lengthRead, c₈, same₈.trans still, ?_⟩
  rw [← behind, ← still, ← counted]
  exact taken

/-- The root describes the metadata that it stands in front of: it has as many streams as the
number behind its version says, under different names, and each can be cut out. -/
structure Describes (root : StorageRoot) (data : ByteArray) : Prop where
  versionLength : root.versionLength = Bytes.number data 12 4
  count : root.streams.length = Bytes.number data (18 + root.versionLength) 2
  distinct : (root.streams.map (·.name)).Nodup
  within : ∀ h ∈ root.streams, h.offset + h.size ≤ data.size
  cut : ∀ name h, root.stream? name = some h →
    Module.streamBytes? data root name = Bytes.window? data h.offset h.size ∧
      (Module.streamBytes? data root name).isSome

theorem read_inReach {data : ByteArray} {root : StorageRoot} (ran : read data = .ok root) :
    ∀ h ∈ root.streams, h.InReach data.size := by
  obtain ⟨c', ran⟩ := runOn_ok.1 ran
  obtain ⟨-, c, rfl, streams⟩ := reader_ok ran
  obtain ⟨_, rfl, -, inside, -⟩ := nextStreams_ok streams List.nodup_nil
  exact inside

theorem read_describes {data : ByteArray} {root : StorageRoot} (ran : read data = .ok root) :
    root.Describes data := by
  have within : ∀ h ∈ root.streams, h.offset + h.size ≤ data.size := fun h member =>
    (read_inReach ran h member).2
  obtain ⟨c', ran⟩ := runOn_ok.1 ran
  obtain ⟨length, c, rfl, streams⟩ := reader_ok ran
  obtain ⟨_, same, count, -, distinct⟩ := nextStreams_ok streams List.nodup_nil
  rw [List.nil_append] at same
  subst same
  refine ⟨length, count, distinct, within, fun name h found => ?_⟩
  have fits := within h (List.mem_of_find?_eq_some found)
  rw [Module.streamBytes?, found, Bytes.window?, if_pos fits]
  exact ⟨rfl, rfl⟩

/-- A root is read as it was written, unless the end of a stream is no number of four bytes; then
the first such stream is refused. And what is read describes the data. -/
theorem read_storage :
    (∀ (root : StorageRoot) (rest : List UInt8), root.Storable (root.written ++ rest).length →
      (read (root.written ++ rest).toByteArray = .ok root ↔
        ∀ h ∈ root.streams, h.offset + h.size < 0x100000000) ∧
      ∀ inFront h behind, root.streams = inFront ++ h :: behind →
        (∀ other ∈ inFront, other.offset + other.size < 0x100000000) →
        0x100000000 ≤ h.offset + h.size →
        read (root.written ++ rest).toByteArray =
          .error (.malformed (.streamRange h.name h.offset h.size))) ∧
    ∀ (data : ByteArray) (root : StorageRoot), read data = .ok root → root.Describes data := by
  refine ⟨fun root rest storable => ⟨⟨fun ran h member => ?_, read_written storable⟩,
    fun inFront h behind => read_written_beyond storable⟩, fun _ _ => read_describes⟩
  exact (read_inReach ran h member).1

def twoStreams : StorageRoot where
  signature := magic
  majorVersion := 1
  minorVersion := 1
  reserved := 0x40000000
  versionLength := 8
  version := "v4.0"
  flags := 0
  streams := [⟨48, 4, "#~"⟩, ⟨52, 4, "#US"⟩]

theorem twoStreams_storable :
    twoStreams.Storable (twoStreams.written ++ List.replicate 8 0).length where
  signature := rfl
  majorVersion := by decide
  minorVersion := by decide
  reserved := by decide
  version := by decide +kernel
  versionFits := by decide +kernel
  versionLength := by decide
  flags := by decide
  some := by simp [twoStreams]
  few := by decide
  streams := by
    simp only [twoStreams, List.forall_mem_cons]
    exact ⟨⟨by decide, by decide, by simp, by simp, by decide⟩,
      ⟨by decide, by decide, by simp, by simp, by decide⟩, List.forall_mem_nil _⟩
  distinct := by decide
  within := by
    simp only [twoStreams, List.forall_mem_cons]
    exact ⟨by decide +kernel, by decide +kernel, List.forall_mem_nil _⟩

theorem read_storage_twoStreams :
    twoStreams.written ++ List.replicate 8 0 =
      [0x42, 0x53, 0x4A, 0x42, 0x01, 0x00, 0x01, 0x00, 0x00, 0x00, 0x00, 0x40,
        0x08, 0x00, 0x00, 0x00, 0x76, 0x34, 0x2E, 0x30, 0x00, 0x00, 0x00, 0x00,
        0x00, 0x00, 0x02, 0x00,
        0x30, 0x00, 0x00, 0x00, 0x04, 0x00, 0x00, 0x00, 0x23, 0x7E, 0x00, 0x00,
        0x34, 0x00, 0x00, 0x00, 0x04, 0x00, 0x00, 0x00, 0x23, 0x55, 0x53, 0x00,
        0x00, 0x00, 0x00, 0x00, 0x00, 0x00, 0x00, 0x00] ∧
    twoStreams.Storable (twoStreams.written ++ List.replicate 8 0).length ∧
    read (twoStreams.written ++ List.replicate 8 0).toByteArray = .ok twoStreams ∧
    twoStreams.Describes (twoStreams.written ++ List.replicate 8 0).toByteArray := by
  have short : ∀ h ∈ twoStreams.streams, h.offset + h.size < 0x100000000 := by decide
  have ran := ((read_storage.1 _ _ twoStreams_storable).1).2 short
  exact ⟨by decide +kernel, twoStreams_storable, ran, read_storage.2 _ _ ran⟩

def longStream : StorageRoot :=
  { twoStreams with streams := [⟨1, 0xFFFFFFFF, "#~"⟩] }

theorem longStream_storable {rest : List UInt8} (long : 0x100000000 ≤ rest.length) :
    longStream.Storable (longStream.written ++ rest).length where
  signature := rfl
  majorVersion := by decide
  minorVersion := by decide
  reserved := by decide
  version := twoStreams_storable.version
  versionFits := twoStreams_storable.versionFits
  versionLength := by decide
  flags := by decide
  some := by simp [longStream]
  few := by decide
  streams := by
    simp only [longStream, List.forall_mem_cons]
    exact ⟨⟨by decide, by decide, by simp, by simp, by decide⟩, List.forall_mem_nil _⟩
  distinct := by decide
  within := by
    simp only [longStream, List.forall_mem_cons, List.length_append]
    exact ⟨by omega, List.forall_mem_nil _⟩

/-- The stream lies within the data, but ends behind the first 4 GiB. -/
theorem read_storage_longStream : ¬∀ (root : StorageRoot) (rest : List UInt8),
    root.Storable (root.written ++ rest).length →
      read (root.written ++ rest).toByteArray = .ok root := by
  intro always
  have zeros (n : Nat) : ∃ rest : List UInt8, n ≤ rest.length := ⟨List.replicate n 0, by simp⟩
  obtain ⟨rest, long⟩ := zeros 0x100000000
  have storable := longStream_storable long
  have failed := read_written_beyond storable (List.nil_append _).symm (by simp) (by decide)
  rw [always _ _ storable] at failed
  cases failed

end StorageRoot

end CliMetadata
