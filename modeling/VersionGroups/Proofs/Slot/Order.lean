import Mathlib.Data.List.Basic
import VersionGroups.Slot.Basic

/-!
# The order of slots

Slots are compared by the texts that they are made of. That is an order by their parts: packets come
before types, packets go by direction, state and name, and a type of the whole document comes before
the types of a direction and a state.
-/
namespace VersionGroups

/-- Packets to the server come before packets to the client. -/
def Direction.Precedes (d e : Direction) : Prop := d = .toServer ∧ e = .toClient

/-- The order of packets: by direction, then by state, then by name. -/
def PacketName.Precedes (p q : PacketName) : Prop :=
  p.direction.Precedes q.direction ∨
    p.direction = q.direction ∧ (p.state < q.state ∨ p.state = q.state ∧ p.name < q.name)

/-- The order of scopes: the whole document, then by direction, then by state. -/
def TypeScope.Precedes : TypeScope → TypeScope → Prop
  | .common, .common => False
  | .common, .scoped _ _ => True
  | .scoped _ _, .common => False
  | .scoped d state, .scoped e state' => d.Precedes e ∨ d = e ∧ state < state'

/-- The order of types: by scope, then by name. -/
def TypeName.Precedes (t u : TypeName) : Prop :=
  t.scope.Precedes u.scope ∨ t.scope = u.scope ∧ t.name < u.name

/-- The order of slots: packets, then types. -/
def Slot.Precedes : Slot → Slot → Prop
  | .packet p, .packet q => p.Precedes q
  | .packet _, .type _ => True
  | .type _, .packet _ => False
  | .type t, .type u => t.Precedes u

theorem compare_text_eq_lt {s t : String} : compare s t = .lt ↔ s < t :=
  compareOfLessAndEq_eq_lt

theorem Direction.precedes_of_name {d e : Direction} (h : d.name < e.name) : d.Precedes e := by
  cases d <;> cases e <;> first | exact ⟨rfl, rfl⟩ | exact absurd h (by decide)

theorem compare_cons_self {text : String} {texts texts' : List String} :
    compare (text :: texts) (text :: texts') = compare texts texts' := by
  have hself : compare text text = .eq := Std.ReflCmp.compare_self
  rw [List.compare_cons_cons, hself, Ordering.eq_then]

theorem compare_cons_eq_lt {text text' : String} {texts texts' : List String} :
    compare (text :: texts) (text' :: texts') = .lt ↔
      text < text' ∨ text = text' ∧ compare texts texts' = .lt := by
  rw [List.compare_cons_cons, Ordering.then_eq_lt, compare_text_eq_lt, Std.compare_eq_iff_eq]

theorem compare_singleton_eq_lt {text text' : String} :
    compare [text] [text'] = .lt ↔ text < text' := by
  rw [compare_cons_eq_lt]
  simp

theorem PacketName.precedes_of_compare {p q : PacketName}
    (h : compare [p.direction.name, p.state, p.name] [q.direction.name, q.state, q.name] = .lt) :
    p.Precedes q := by
  rw [compare_cons_eq_lt, compare_cons_eq_lt, compare_singleton_eq_lt] at h
  rcases h with hdirection | ⟨hsame, h⟩
  · exact .inl (Direction.precedes_of_name hdirection)
  · exact .inr ⟨Direction.name_injective hsame, h⟩

/-- A slot with the smaller texts stands before the other one. -/
theorem Slot.precedes_of_compare {s t : Slot} (h : compare s t = .lt) : s.Precedes t := by
  rw [compare_def] at h
  rcases s with p | ⟨_ | ⟨d, state⟩, name⟩ <;> rcases t with q | ⟨_ | ⟨e, state'⟩, name'⟩
  · exact PacketName.precedes_of_compare (compare_cons_self.symm.trans h)
  · trivial
  · trivial
  · rcases compare_cons_eq_lt.mp h with hfirst | ⟨hfirst, -⟩ <;> exact absurd hfirst (by decide)
  · rw [rank, rank, compare_cons_self, compare_cons_self, compare_singleton_eq_lt] at h
    exact .inr ⟨rfl, h⟩
  · exact .inl trivial
  · rcases compare_cons_eq_lt.mp h with hfirst | ⟨hfirst, -⟩ <;> exact absurd hfirst (by decide)
  · rw [rank, rank, compare_cons_self] at h
    rcases compare_cons_eq_lt.mp h with hfirst | ⟨hfirst, -⟩ <;> exact absurd hfirst (by decide)
  · rw [rank, rank, compare_cons_self, compare_cons_self, compare_cons_eq_lt, compare_cons_eq_lt,
      compare_singleton_eq_lt] at h
    rcases h with hdirection | ⟨hsame, hstate | ⟨rfl, hname⟩⟩
    · exact .inl (.inl (Direction.precedes_of_name hdirection))
    · exact .inl (.inr ⟨Direction.name_injective hsame, hstate⟩)
    · exact .inr ⟨by rw [Direction.name_injective hsame], hname⟩

end VersionGroups
