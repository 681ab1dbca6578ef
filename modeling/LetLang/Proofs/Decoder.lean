import LetLang.Settings.Yaml
import Mathlib

/-! What is relied on of a library for documents, and that the decoder of YAML does it. Only nodes
without tags count: a mapping with scalars for keys, and a scalar that names a variant. -/

namespace LetLang

def Yaml.Node.text? : Node → Option String
  | scalar text _ none _ => some text
  | _ => none

namespace Settings

open Yaml (Document Mark Node)

/-- A library does what is documented. A mapping is decoded if its keys are known and distinct and
each value is decoded; what is given for a field is its value, and nothing for a field that is not
there. A scalar is decoded if it is the name of a variant. -/
structure Decoder.Lawful (c : Decoder) : Prop where
  record_eq_ok_iff {α : Type} {d : Document} {wanted : String} {known : List String}
      {value : Slot → Node → Except ContentError α} {path : Path} {entries : List (Node × Node)}
      {mark : Mark} {given : String → Option α} (hkeys : ∀ entry ∈ entries, entry.1.text?.isSome) :
    c.record d wanted known value path (.mapping entries none mark) = .ok given ↔
      ∃ fields : List (String × α), List.Forall₂ (fun entry f => entry.1.text? = some f.1 ∧
          f.1 ∈ known ∧ value ⟨path, mark, f.1⟩ entry.2 = .ok f.2) entries fields ∧
        (fields.map Prod.fst).Nodup ∧ given = fun name => fields.lookup name
  variant_eq_ok_iff {α : Type} {d : Document} {variants : List (String × α)} {slot : Slot}
      {node : Node} {name : String} {a : α} (hname : node.text? = some name) :
    c.variant d variants slot node = .ok a ↔ variants.lookup name = some a

theorem map_eq_ok_iff {ε α β : Type} {f : α → β} {x : Except ε α} {b : β} :
    x.map f = .ok b ↔ ∃ a, x = .ok a ∧ f a = b := by
  cases x <;> simp [Except.map]

section

variable {α : Type} {l : List (String × α)}

theorem isSome_lookup_iff {name : String} : (l.lookup name).isSome ↔ name ∈ l.map Prod.fst := by
  rw [List.lookup_isSome_iff, List.mem_map]
  exact exists_congr fun p => and_congr_right fun _ => beq_iff_eq.trans eq_comm

theorem lookup_eq_some_iff_mem (h : (l.map Prod.fst).Nodup) {key : String} {a : α} :
    l.lookup key = some a ↔ (key, a) ∈ l := by
  induction l with
  | nil => simp
  | cons p l ih =>
    obtain ⟨key', b⟩ := p
    obtain ⟨hnew, hrest⟩ := List.nodup_cons.1 h
    rw [List.lookup_cons]
    by_cases hkey : key = key'
    · subst hkey
      have hnone : (key, a) ∉ l := fun hmem => hnew (List.mem_map.2 ⟨_, hmem, rfl⟩)
      simp [hnone, eq_comm]
    · have hbeq : (key == key') = false := beq_eq_false_iff_ne.2 hkey
      simp [hbeq, hkey, ih hrest]

theorem lookup_reverse (h : (l.map Prod.fst).Nodup) (key : String) :
    l.reverse.lookup key = l.lookup key := by
  have hreverse : (l.reverse.map Prod.fst).Nodup := by
    rw [List.map_reverse]
    exact List.nodup_reverse.2 h
  ext a
  rw [lookup_eq_some_iff_mem hreverse, lookup_eq_some_iff_mem h, List.mem_reverse]

end

section

variable {d : Document} {path : Path} {known : List String} {key : Node} {name name' : String}

theorem fieldName_of_text (h : key.text? = some name) :
    fieldName d known path key = .ok name' ↔ name ∈ known ∧ name = name' := by
  obtain ⟨text, plain, ⟨⟩ | tag, mark⟩ | _ | _ | _ := key <;> cases h
  simp only [fieldName, Document.follow]
  split <;> simp_all

theorem segment_of_text (h : key.text? = some name) : segment key = name := by
  obtain ⟨text, plain, ⟨⟩ | tag, mark⟩ | _ | _ | _ := key <;> cases h
  rfl

theorem decodeVariant_of_text {α : Type} {variants : List (String × α)} {slot : Slot} {a : α}
    (h : key.text? = some name) :
    decodeVariant variants d slot key = .ok a ↔ variants.lookup name = some a := by
  obtain ⟨text, plain, ⟨⟩ | tag, mark⟩ | _ | _ | _ := key <;> cases h
  change variantNamed variants slot.inner mark name = .ok a ↔ _
  rw [variantNamed]
  cases variants.lookup name <;> simp

variable {α : Type} {value : Slot → Node → Except ContentError α} {mark : Mark}
  {done result : List (String × α)} {entries : List (Node × Node)}

theorem decodeEntries_cons_eq_ok_iff {entry : Node × Node} :
    decodeEntries d known value path mark done (entry :: entries) = .ok result ↔
      ∃ name a, fieldName d known path entry.1 = .ok name ∧ name ∉ done.map Prod.fst ∧
        value ⟨path, mark, segment entry.1⟩ entry.2 = .ok a ∧
        decodeEntries d known value path mark ((name, a) :: done) entries = .ok result := by
  obtain ⟨key, node⟩ := entry
  rw [decodeEntries]
  cases fieldName d known path key with
  | error e => simp [bind, Except.bind]
  | ok name =>
    simp only [bind, Except.bind, isSome_lookup_iff]
    by_cases hdone : name ∈ done.map Prod.fst
    · simp [-List.mem_map, hdone, throw, throwThe, MonadExceptOf.throw]
    · cases value ⟨path, mark, segment key⟩ node <;> simp [-List.mem_map, hdone]

theorem decodeEntries_eq_ok_iff (hkeys : ∀ entry ∈ entries, entry.1.text?.isSome) :
    decodeEntries d known value path mark done entries = .ok result ↔
      ∃ fields : List (String × α), List.Forall₂ (fun entry f => entry.1.text? = some f.1 ∧
          f.1 ∈ known ∧ value ⟨path, mark, f.1⟩ entry.2 = .ok f.2) entries fields ∧
        (fields.map Prod.fst).Nodup ∧ (∀ f ∈ fields, f.1 ∉ done.map Prod.fst) ∧
        result = fields.reverse ++ done := by
  induction entries generalizing done with
  | nil =>
    rw [decodeEntries]
    simp [eq_comm]
  | cons entry entries ih =>
    obtain ⟨hkey, hkeys⟩ := List.forall_mem_cons.1 hkeys
    obtain ⟨key, hkey⟩ := Option.isSome_iff_exists.1 hkey
    rw [decodeEntries_cons_eq_ok_iff]
    simp only [fieldName_of_text hkey, segment_of_text hkey]
    constructor
    · rintro ⟨_, a, ⟨hknown, rfl⟩, hnew, ha, hrest⟩
      obtain ⟨fields, hfields, hnodup, hdone, rfl⟩ := (ih hkeys).1 hrest
      refine ⟨(key, a) :: fields, .cons ⟨hkey, hknown, ha⟩ hfields, ?_, ?_, by simp⟩
      · refine List.nodup_cons.2 ⟨fun hmem => ?_, hnodup⟩
        obtain ⟨f, hf, rfl⟩ := List.mem_map.1 hmem
        exact hdone f hf List.mem_cons_self
      · refine List.forall_mem_cons.2 ⟨hnew, fun f hf hmem => ?_⟩
        exact hdone f hf (List.mem_cons_of_mem _ hmem)
    · rintro ⟨fields, hfields, hnodup, hdone, rfl⟩
      obtain ⟨⟨key', a⟩, fields, ⟨hkey', hknown, ha⟩, hrest, rfl⟩ :=
        List.forall₂_cons_left_iff.1 hfields
      obtain rfl : key = key' := Option.some.inj (hkey.symm.trans hkey')
      obtain ⟨hfirst, hnodup⟩ := List.nodup_cons.1 hnodup
      obtain ⟨hnew, hdone⟩ := List.forall_mem_cons.1 hdone
      refine ⟨key, a, ⟨hknown, rfl⟩, hnew, ha, (ih hkeys).2 ⟨fields, hrest, hnodup, ?_, by simp⟩⟩
      intro f hf hmem
      rcases List.mem_cons.1 hmem with heq | hmem
      · exact hfirst (List.mem_map.2 ⟨f, hf, heq⟩)
      · exact hdone f hf hmem

end

theorem Decoder.lawful_yaml : Decoder.yaml.Lawful where
  record_eq_ok_iff {_ d _ known value path entries mark given} hkeys := by
    change (decodeEntries d known value path mark [] entries).map _ = _ ↔ _
    rw [map_eq_ok_iff]
    simp only [decodeEntries_eq_ok_iff hkeys]
    constructor
    · rintro ⟨_, ⟨fields, hfields, hnodup, -, rfl⟩, rfl⟩
      refine ⟨fields, hfields, hnodup, ?_⟩
      simp only [List.append_nil, lookup_reverse hnodup]
    · rintro ⟨fields, hfields, hnodup, rfl⟩
      refine ⟨_, ⟨fields, hfields, hnodup, by simp, rfl⟩, ?_⟩
      simp only [List.append_nil, lookup_reverse hnodup]
  variant_eq_ok_iff := decodeVariant_of_text

end Settings

end LetLang
