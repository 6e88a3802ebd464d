import Mathlib.Data.List.Nodup
import Mathlib.Data.List.Range

/-!
# Streams with a Consumer Group

An append-only stream, and a group of consumers that share it. A read for new entries returns those
that were never delivered to the group, in order and up to a limit; they are delivered with it, and
pending until they are acknowledged. The group is created at the end of the stream. The id of an
entry is its place in the stream.

## Main results

- `delivered_readNew`: a read delivers what it returns.
- `notMem_readNew`, `next_le_readNew`: an entry is not returned twice.
-/

namespace ConsumerGroup

/-- What a group knows: the first entry after its creation, the next one to deliver, and the ids of
those that are delivered and not acknowledged. -/
structure Group where
  first : Nat
  next : Nat
  pending : List Nat
  first_le : first ≤ next

namespace Group

/-- A group that starts at a place. -/
def create (start : Nat) : Group := ⟨start, start, [], Nat.le_refl _⟩

/-- The next `n` entries are delivered. -/
def deliver (g : Group) (n : Nat) : Group :=
  ⟨g.first, g.next + n, g.pending ++ List.range' g.next n, Nat.le_add_right_of_le g.first_le⟩

/-- Entries are acknowledged. -/
def acknowledge (g : Group) (ids : List Nat) : Group :=
  { g with pending := g.pending.filter fun id => decide (id ∉ ids) }

/-- The ids of the entries that have been delivered. -/
def delivered (g : Group) : List Nat := List.range' g.first (g.next - g.first)

@[simp] theorem delivered_create (start : Nat) : (create start).delivered = [] := by
  simp [delivered, create]

@[simp] theorem delivered_acknowledge (g : Group) (ids : List Nat) :
    (g.acknowledge ids).delivered = g.delivered := rfl

theorem delivered_deliver (g : Group) (n : Nat) :
    (g.deliver n).delivered = g.delivered ++ List.range' g.next n := by
  obtain ⟨k, hk⟩ := Nat.exists_eq_add_of_le g.first_le
  have hcount : g.first + k + n - g.first = k + n := by omega
  have hbefore : g.first + k - g.first = k := by omega
  rw [delivered, delivered, deliver]
  simp only [hk]
  rw [hcount, hbefore, List.range'_append_1]

end Group

/-- A stream, and its group, if it has been created. -/
structure Stream (α : Type) where
  entries : List α
  group : Option Group

namespace Stream

variable {α : Type} {s : Stream α}

/-- A stream without entries and group. -/
def empty : Stream α := ⟨[], none⟩

/-- An entry is added. -/
def add (s : Stream α) (a : α) : Stream α := { s with entries := s.entries ++ [a] }

/-- The group is created at the end of the stream, unless it is there. -/
def create (s : Stream α) : Stream α :=
  { s with group := some (s.group.getD (Group.create s.entries.length)) }

/-- The ids of all entries below this one have been delivered or passed over. -/
def next (s : Stream α) : Nat := s.group.elim 0 Group.next

/-- The entries that a read for new ones returns, with their ids. -/
def unread (s : Stream α) (limit : Nat) : List (Nat × α) :=
  s.group.elim [] fun g => ((s.entries.drop g.next).take limit).zipIdx g.next |>.map Prod.swap

/-- The stream after such a read. -/
def readNew (s : Stream α) (limit : Nat) : Stream α :=
  { s with group := s.group.map fun g => g.deliver (s.unread limit).length }

/-- Entries are acknowledged. -/
def acknowledge (s : Stream α) (ids : List Nat) : Stream α :=
  { s with group := s.group.map fun g => g.acknowledge ids }

/-- The ids of the entries that have been delivered to the group. -/
def delivered (s : Stream α) : List Nat := s.group.elim [] Group.delivered

@[simp] theorem delivered_empty : (empty : Stream α).delivered = [] := rfl

@[simp] theorem delivered_add (s : Stream α) (a : α) : (s.add a).delivered = s.delivered := rfl

@[simp] theorem delivered_acknowledge (s : Stream α) (ids : List Nat) :
    (s.acknowledge ids).delivered = s.delivered := by
  unfold delivered acknowledge
  cases s.group with
  | none => rfl
  | some g => rfl

@[simp] theorem delivered_create (s : Stream α) : s.create.delivered = s.delivered := by
  unfold delivered create
  cases s.group with
  | none => simp
  | some g => rfl

/-- The ids that a read returns follow each other. -/
theorem ids_unread (s : Stream α) (limit : Nat) :
    (s.unread limit).map Prod.fst = List.range' s.next (s.unread limit).length := by
  unfold unread next
  cases s.group with
  | none => rfl
  | some g => simp [List.map_map, Function.comp_def, List.zipIdx_map_snd]

/-- **A read delivers what it returns.** -/
theorem delivered_readNew (s : Stream α) (limit : Nat) :
    (s.readNew limit).delivered = s.delivered ++ (s.unread limit).map Prod.fst := by
  rw [ids_unread]
  cases hgroup : s.group with
  | none =>
    have hnone : s.unread limit = [] := by rw [unread, hgroup, Option.elim_none]
    simp [delivered, readNew, hgroup, hnone]
  | some g =>
    have hdeliver := g.delivered_deliver (s.unread limit).length
    simpa [delivered, readNew, next, hgroup] using hdeliver

theorem nodup_delivered (s : Stream α) : s.delivered.Nodup := by
  unfold delivered
  cases s.group with
  | none => exact List.nodup_nil
  | some g => exact List.nodup_range'

/-- What has been delivered lies below the next entry. -/
theorem lt_next_of_delivered {id : Nat} (h : id ∈ s.delivered) : id < s.next := by
  unfold delivered next at *
  cases hgroup : s.group with
  | none => simp [hgroup] at h
  | some g =>
    have hle := g.first_le
    simp only [hgroup, Option.elim_some, Group.delivered, List.mem_range'_1] at h ⊢
    omega

/-- **An entry is not returned twice.** -/
theorem notMem_unread {id : Nat} (h : id < s.next) (limit : Nat) :
    id ∉ (s.unread limit).map Prod.fst := by
  rw [ids_unread, List.mem_range'_1]
  omega

/-! ### What is delivered stays delivered -/

theorem next_le_create (s : Stream α) : s.next ≤ s.create.next := by
  unfold next create
  cases s.group with
  | none => exact Nat.zero_le _
  | some g => exact Nat.le_refl _

theorem next_le_readNew (s : Stream α) (limit : Nat) : s.next ≤ (s.readNew limit).next := by
  unfold next readNew
  cases s.group with
  | none => exact Nat.le_refl _
  | some g => exact Nat.le_add_right _ _

theorem next_acknowledge (s : Stream α) (ids : List Nat) : (s.acknowledge ids).next = s.next := by
  unfold next acknowledge
  cases s.group with
  | none => rfl
  | some g => rfl

end Stream

end ConsumerGroup
