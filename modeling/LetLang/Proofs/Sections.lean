import LetLang.Proofs.Decoder
import Mathlib

/-! Settings from the pairs of a document. What a document says is a list of pairs whose order does
not count. If all of it is known, said once and well put, then each policy is the one that is named
or else its default; if not, then the document is rejected as a whole. -/

namespace LetLang

namespace Yaml.Node

def fields? : Node → Option (List (String × String))
  | mapping entries none _ => entries.mapM fun entry => do
      return (← entry.1.text?, ← entry.2.text?)
  | _ => none

def IsField (entry : Node × Node) (f : String × String) : Prop :=
  entry.1.text? = some f.1 ∧ entry.2.text? = some f.2

end Yaml.Node

namespace Settings

open Yaml (Document Mark Node)

/-- A pair at the root of a document: the section for the parser with its fields, or another key
with any value. -/
inductive Item where
  | parser (fields : List (String × String))
  | other (key : String) (ne : key ≠ "parser")
  deriving DecidableEq

namespace Item

def key : Item → String
  | parser _ => "parser"
  | other key _ => key

def fields : Item → List (String × String)
  | parser fields => fields
  | other .. => []

def ofEntry? (entry : Node × Node) : Option Item := do
  let key ← entry.1.text?
  if h : key = "parser" then entry.2.fields?.map parser else some (other key h)

end Item

/-- The pairs at the root of a document, if this is a mapping without a tag whose keys are scalars
without tags, and each section for the parser is such a mapping of scalars. -/
def items? : Node → Option (List Item)
  | .mapping entries none _ => entries.mapM Item.ofEntry?
  | _ => none

def fieldsOf (items : List Item) : List (String × String) := items.flatMap Item.fields

/-- The fields of a section are known and distinct, and the value of each names a policy. -/
structure Valid (fields : List (String × String)) : Prop where
  known : ∀ f ∈ fields, f.1 ∈ ["let-semicolon", "return-semicolon", "expression-semicolon"]
  named : ∀ f ∈ fields, f.2 ∈ ["required", "optional"]
  distinct : (fields.map Prod.fst).Nodup

/-- The root has no key but the one for the parser, this at most once, and the fields of its section
are valid. -/
structure Acceptable (items : List Item) : Prop where
  known : ∀ item ∈ items, item.key = "parser"
  once : (items.map Item.key).count "parser" ≤ 1
  valid : Valid (fieldsOf items)

/-- A policy is as the field of this name says, and the default if there is no such field. -/
structure Says (fields : List (String × String)) (name : String)
    (default policy : SemicolonPolicy) : Prop where
  required : (name, "required") ∈ fields → policy = .required
  optional : (name, "optional") ∈ fields → policy = .optional
  absent : name ∉ fields.map Prod.fst → policy = default

/-- What the fields of a section say about each policy. -/
structure Told (fields : List (String × String)) (policies : Policies) : Prop where
  letStmt : Says fields "let-semicolon" .required policies.letStmt
  returnStmt : Says fields "return-semicolon" .required policies.returnStmt
  exprStmt : Says fields "expression-semicolon" .optional policies.exprStmt

section

variable {α β γ : Type}

theorem mapM_eq_some_iff {f : α → Option β} {l : List α} {m : List β} :
    l.mapM f = some m ↔ List.Forall₂ (fun a b => f a = some b) l m := by
  induction l generalizing m with
  | nil => simp [eq_comm]
  | cons a l ih =>
    simp only [List.mapM_cons, Option.bind_eq_bind, Option.bind_eq_some_iff, Option.pure_def,
      Option.some.injEq, ih, List.forall₂_cons_left_iff]
    constructor
    · rintro ⟨b, hb, m, hm, rfl⟩
      exact ⟨b, m, hb, hm, rfl⟩
    · rintro ⟨b, m, hb, hm, rfl⟩
      exact ⟨b, hb, m, hm, rfl⟩

theorem forall₂_congr_left {R : α → γ → Prop} {S : β → γ → Prop} {A : α → β → Prop} {l : List α}
    {m : List β} (hA : List.Forall₂ A l m) (h : ∀ a b, A a b → ∀ c, R a c ↔ S b c)
    (n : List γ) : List.Forall₂ R l n ↔ List.Forall₂ S m n := by
  induction hA generalizing n with
  | nil => simp
  | cons hab _ ih =>
    rw [List.forall₂_cons_left_iff, List.forall₂_cons_left_iff]
    simp only [h _ _ hab, ih]

theorem exists_of_forall₂_of_mem {R : α → β → Prop} {l : List α} {m : List β}
    (h : List.Forall₂ R l m) {a : α} (ha : a ∈ l) : ∃ b ∈ m, R a b := by
  induction h with
  | nil => cases ha
  | @cons a' b l m hab _ ih =>
    rcases List.mem_cons.1 ha with rfl | ha
    · exact ⟨b, List.mem_cons_self, hab⟩
    · obtain ⟨b', hb', hR⟩ := ih ha
      exact ⟨b', List.mem_cons_of_mem _ hb', hR⟩

end

theorem exists_of_fields? {node : Node} {fields : List (String × String)}
    (h : node.fields? = some fields) :
    ∃ entries mark, node = .mapping entries none mark ∧
      List.Forall₂ Node.IsField entries fields := by
  cases node with
  | mapping entries tag mark =>
    cases tag with
    | none =>
      refine ⟨entries, mark, rfl, (mapM_eq_some_iff.1 h).imp fun entry f hf => ?_⟩
      obtain ⟨key, hkey, name, hname, rfl⟩ : ∃ key, entry.1.text? = some key ∧
          ∃ name, entry.2.text? = some name ∧ (key, name) = f := by
        simpa [Option.bind_eq_some_iff] using hf
      exact ⟨hkey, hname⟩
    | some tag => cases h
  | _ => cases h

theorem exists_of_items? {node : Node} {items : List Item} (h : items? node = some items) :
    ∃ entries mark, node = .mapping entries none mark ∧
      List.Forall₂ (fun entry item => Item.ofEntry? entry = some item) entries items := by
  cases node with
  | mapping entries tag mark =>
    cases tag with
    | none => exact ⟨entries, mark, rfl, mapM_eq_some_iff.1 h⟩
    | some tag => cases h
  | _ => cases h

theorem Decoder.Lawful.record_map_eq_ok_iff {c : Decoder} (hc : c.Lawful) {α β γ : Type}
    {d : Document} {wanted : String} {known : List String}
    {value : Slot → Node → Except ContentError α} {path : Path} {mark : Mark}
    {entries : List (Node × Node)} {items : List β} {g : (String → Option α) → γ} {result : γ}
    {A : Node × Node → β → Prop} {R : β → String × α → Prop} (hitems : List.Forall₂ A entries items)
    (hkeys : ∀ entry item, A entry item → entry.1.text?.isSome)
    (hR : ∀ entry item, A entry item → ∀ f, (entry.1.text? = some f.1 ∧ f.1 ∈ known ∧
      value ⟨path, mark, f.1⟩ entry.2 = .ok f.2) ↔ R item f) :
    (c.record d wanted known value path (.mapping entries none mark)).map g = .ok result ↔
      ∃ fields, List.Forall₂ R items fields ∧ (fields.map Prod.fst).Nodup ∧
        g (fun name => fields.lookup name) = result := by
  have htexts : ∀ entry ∈ entries, entry.1.text?.isSome := fun entry hentry =>
    have ⟨item, _, hitem⟩ := exists_of_forall₂_of_mem hitems hentry
    hkeys entry item hitem
  rw [map_eq_ok_iff]
  simp only [hc.record_eq_ok_iff htexts, forall₂_congr_left hitems hR]
  constructor
  · rintro ⟨_, ⟨fields, hfields, hnodup, rfl⟩, hresult⟩
    exact ⟨fields, hfields, hnodup, hresult⟩
  · rintro ⟨fields, hfields, hnodup, hresult⟩
    exact ⟨_, ⟨fields, hfields, hnodup, rfl⟩, hresult⟩

def FieldDecoded (f : String × String) (v : String × SemicolonPolicy) : Prop :=
  f.1 = v.1 ∧ f.1 ∈ policyFields ∧ policyVariants.lookup f.2 = some v.2

section

variable {fields : List (String × String)} {policies policies' : Policies}

theorem isSome_lookup_policyVariants_iff {name : String} :
    (policyVariants.lookup name).isSome ↔ name ∈ ["required", "optional"] :=
  isSome_lookup_iff

theorem map_fst_of_fieldDecoded {given : List (String × SemicolonPolicy)}
    (h : List.Forall₂ FieldDecoded fields given) : given.map Prod.fst = fields.map Prod.fst := by
  induction h with
  | nil => rfl
  | cons hf _ ih => rw [List.map_cons, List.map_cons, ih, hf.1]

theorem Says.eq {name : String} {default policy policy' : SemicolonPolicy}
    (hnamed : ∀ f ∈ fields, f.2 ∈ ["required", "optional"]) (h : Says fields name default policy)
    (h' : Says fields name default policy') : policy = policy' := by
  by_cases hmem : name ∈ fields.map Prod.fst
  · obtain ⟨⟨key, value⟩, hfield, rfl⟩ := List.mem_map.1 hmem
    obtain rfl | rfl : value = "required" ∨ value = "optional" := by simpa using hnamed _ hfield
    · rw [h.required hfield, h'.required hfield]
    · rw [h.optional hfield, h'.optional hfield]
  · rw [h.absent hmem, h'.absent hmem]

theorem Told.eq (hvalid : Valid fields) (h : Told fields policies) (h' : Told fields policies') :
    policies = policies' := by
  have hlet := h.letStmt.eq hvalid.named h'.letStmt
  have hreturn := h.returnStmt.eq hvalid.named h'.returnStmt
  have hexpr := h.exprStmt.eq hvalid.named h'.exprStmt
  exact Policies.mk.injEq .. ▸ ⟨hlet, hreturn, hexpr⟩

theorem valid_nil : Valid [] := ⟨by simp, by simp, by simp⟩

theorem says_nil (name : String) (default : SemicolonPolicy) : Says [] name default default :=
  ⟨by simp, by simp, by simp⟩

theorem told_nil : Told [] {} := ⟨says_nil _ _, says_nil _ _, says_nil _ _⟩

theorem says_getD_lookup {given : List (String × SemicolonPolicy)}
    (h : List.Forall₂ FieldDecoded fields given) (hnodup : (fields.map Prod.fst).Nodup)
    (name : String) (default : SemicolonPolicy) :
    Says fields name default ((given.lookup name).getD default) := by
  have hkeys := map_fst_of_fieldDecoded h
  have hgiven : ∀ value policy, policyVariants.lookup value = some policy →
      (name, value) ∈ fields → given.lookup name = some policy := by
    intro value policy hpolicy hmem
    obtain ⟨⟨key, policy'⟩, hmem', rfl, -, hpolicy'⟩ := exists_of_forall₂_of_mem h hmem
    obtain rfl : policy = policy' := Option.some.inj (hpolicy.symm.trans hpolicy')
    exact (lookup_eq_some_iff_mem (hkeys ▸ hnodup)).2 hmem'
  refine ⟨fun hmem => ?_, fun hmem => ?_, fun hnone => ?_⟩
  · rw [hgiven "required" .required rfl hmem, Option.getD_some]
  · rw [hgiven "optional" .optional rfl hmem, Option.getD_some]
  · have hlookup : given.lookup name = none := by
      rw [← Option.not_isSome_iff_eq_none, isSome_lookup_iff, hkeys]
      exact hnone
    rw [hlookup, Option.getD_none]

theorem told_policiesOf {given : List (String × SemicolonPolicy)}
    (h : List.Forall₂ FieldDecoded fields given) (hnodup : (fields.map Prod.fst).Nodup) :
    Told fields (policiesOf fun name => given.lookup name) where
  letStmt := says_getD_lookup h hnodup "let-semicolon" .required
  returnStmt := says_getD_lookup h hnodup "return-semicolon" .required
  exprStmt := says_getD_lookup h hnodup "expression-semicolon" .optional

theorem valid_iff_fieldDecoded :
    Valid fields ↔ (∃ given, List.Forall₂ FieldDecoded fields given) ∧
      (fields.map Prod.fst).Nodup := by
  constructor
  · intro h
    refine ⟨⟨fields.map fun f => (f.1, (policyVariants.lookup f.2).getD .required), ?_⟩,
      h.distinct⟩
    refine List.forall₂_map_right_iff.2 (List.forall₂_same.2 fun f hf => ⟨rfl, h.known f hf, ?_⟩)
    have hsome := isSome_lookup_policyVariants_iff.2 (h.named f hf)
    obtain ⟨policy, hpolicy⟩ := Option.isSome_iff_exists.1 hsome
    rw [hpolicy]
    rfl
  · rintro ⟨⟨given, h⟩, hnodup⟩
    refine ⟨fun f hf => ?_, fun f hf => ?_, hnodup⟩
    · obtain ⟨_, _, _, hknown, _⟩ := exists_of_forall₂_of_mem h hf
      exact hknown
    · obtain ⟨_, _, _, _, hpolicy⟩ := exists_of_forall₂_of_mem h hf
      exact isSome_lookup_policyVariants_iff.1 (Option.isSome_of_mem hpolicy)

theorem Valid.exists_told (h : Valid fields) : ∃ policies, Told fields policies := by
  obtain ⟨⟨given, hgiven⟩, hnodup⟩ := valid_iff_fieldDecoded.1 h
  exact ⟨_, told_policiesOf hgiven hnodup⟩

theorem Decoder.Lawful.policies_eq_ok_iff {c : Decoder} (hc : c.Lawful) {d : Document} {slot : Slot}
    {node : Node} (hnode : node.fields? = some fields) :
    c.policies d slot node = .ok policies ↔ Valid fields ∧ Told fields policies := by
  obtain ⟨entries, mark, rfl, hentries⟩ := exists_of_fields? hnode
  have hkeys : ∀ entry f, Node.IsField entry f → entry.1.text?.isSome :=
    fun _ _ hf => Option.isSome_of_mem hf.1
  have hfield : ∀ entry f, Node.IsField entry f → ∀ v, (entry.1.text? = some v.1 ∧
      v.1 ∈ policyFields ∧ c.policy d ⟨slot.inner, mark, v.1⟩ entry.2 = .ok v.2) ↔
        FieldDecoded f v := by
    rintro entry f ⟨hkey, hname⟩ v
    rw [Decoder.policy, hc.variant_eq_ok_iff hname, hkey, Option.some.injEq, FieldDecoded]
    exact and_congr_right fun heq => by rw [heq]
  rw [Decoder.policies, hc.record_map_eq_ok_iff hentries hkeys hfield]
  constructor
  · rintro ⟨given, hgiven, hnodup, rfl⟩
    rw [map_fst_of_fieldDecoded hgiven] at hnodup
    exact ⟨valid_iff_fieldDecoded.2 ⟨⟨given, hgiven⟩, hnodup⟩, told_policiesOf hgiven hnodup⟩
  · rintro ⟨hvalid, htold⟩
    obtain ⟨⟨given, hgiven⟩, hnodup⟩ := valid_iff_fieldDecoded.1 hvalid
    refine ⟨given, hgiven, ?_, (told_policiesOf hgiven hnodup).eq hvalid htold⟩
    rw [map_fst_of_fieldDecoded hgiven]
    exact hnodup

end

section

variable {c : Decoder} {items items' : List Item}

theorem acceptable_iff : Acceptable items ↔
    items = [] ∨ ∃ fields, items = [.parser fields] ∧ Valid fields := by
  constructor
  · rintro ⟨hknown, honce, hvalid⟩
    have hlength : items.length ≤ 1 := by
      have hall : ∀ key ∈ items.map Item.key, "parser" = key :=
        List.forall_mem_map.2 fun item hitem => (hknown item hitem).symm
      rw [List.count_eq_length.2 hall, List.length_map] at honce
      exact honce
    match items, hlength with
    | [], _ => exact .inl rfl
    | [.parser fields], _ => exact .inr ⟨fields, rfl, by simpa [fieldsOf, Item.fields] using hvalid⟩
    | [.other key ne], _ => exact absurd (hknown _ List.mem_cons_self) ne
  · rintro (rfl | ⟨fields, rfl, hvalid⟩)
    · exact ⟨by simp, by simp, valid_nil⟩
    · exact ⟨by simp [Item.key], by simp [Item.key], by simpa [fieldsOf, Item.fields] using hvalid⟩

def ItemDecoded (item : Item) (v : String × Policies) : Prop :=
  ∃ fields, item = .parser fields ∧ v.1 = "parser" ∧ Valid fields ∧ Told fields v.2

theorem isSome_text?_of_ofEntry? {entry : Node × Node} {item : Item}
    (hitem : Item.ofEntry? entry = some item) : entry.1.text?.isSome := by
  obtain ⟨key, hkey, -⟩ := Option.bind_eq_some_iff.1 hitem
  exact Option.isSome_of_mem hkey

theorem Decoder.Lawful.itemDecoded_iff (hc : c.Lawful) {d : Document} {mark : Mark}
    {entry : Node × Node} {item : Item} (hitem : Item.ofEntry? entry = some item)
    (v : String × Policies) :
    (entry.1.text? = some v.1 ∧ v.1 ∈ ["parser"] ∧ c.policies d ⟨[], mark, v.1⟩ entry.2 = .ok v.2) ↔
      ItemDecoded item v := by
  obtain ⟨key, hkey, hitem⟩ := Option.bind_eq_some_iff.1 hitem
  rw [hkey, Option.some.injEq, List.mem_singleton]
  split at hitem
  case isTrue heq =>
    obtain ⟨fields, hfields, rfl⟩ := Option.map_eq_some_iff.1 hitem
    rw [hc.policies_eq_ok_iff hfields]
    simp [ItemDecoded, heq, eq_comm]
  case isFalse hne =>
    cases hitem
    constructor
    · rintro ⟨rfl, heq, -⟩
      exact absurd heq hne
    · rintro ⟨_, ⟨⟩, -⟩

theorem Decoder.Lawful.settings_eq_ok_iff (hc : c.Lawful) {d : Document} {settings : Settings}
    (hitems : items? d.root = some items) :
    c.settings d = .ok settings ↔ Acceptable items ∧ Told (fieldsOf items) settings.parser := by
  obtain ⟨entries, mark, hroot, hentries⟩ := exists_of_items? hitems
  rw [Decoder.settings, hroot, hc.record_map_eq_ok_iff hentries
    (fun _ _ => isSome_text?_of_ofEntry?) (fun _ _ => hc.itemDecoded_iff), acceptable_iff]
  constructor
  · rintro ⟨given, hgiven, hnodup, rfl⟩
    cases hgiven with
    | nil => exact ⟨.inl rfl, told_nil⟩
    | @cons item v items given hv hrest =>
      obtain ⟨fields, rfl, hkey, hvalid, htold⟩ := hv
      cases hrest with
      | nil =>
        obtain ⟨key, policies⟩ := v
        obtain rfl : key = "parser" := hkey
        refine ⟨.inr ⟨fields, rfl, hvalid⟩, ?_⟩
        simpa [fieldsOf, Item.fields, ofSections] using htold
      | cons hw _ =>
        obtain ⟨_, _, hkey', _⟩ := hw
        simp [hkey, hkey'] at hnodup
  · rintro ⟨rfl | ⟨fields, rfl, hvalid⟩, htold⟩
    · exact ⟨[], .nil, .nil, congrArg Settings.mk (told_nil.eq valid_nil htold)⟩
    · rw [fieldsOf, List.flatMap_singleton] at htold
      have hitem : ItemDecoded (.parser fields) ("parser", settings.parser) :=
        ⟨fields, rfl, rfl, hvalid, htold⟩
      exact ⟨[("parser", settings.parser)], .cons hitem .nil, by simp, by simp [ofSections]⟩

inductive Alike : Item → Item → Prop where
  | parser {fields fields' : List (String × String)} (h : fields.Perm fields') :
      Alike (.parser fields) (.parser fields')
  | other {key : String} (ne : key ≠ "parser") : Alike (.other key ne) (.other key ne)

theorem Alike.key {item item' : Item} (h : Alike item item') : item.key = item'.key := by
  cases h <;> rfl

theorem Alike.fields {item item' : Item} (h : Alike item item') :
    item.fields.Perm item'.fields := by
  cases h with
  | parser h => exact h
  | other => exact .refl _

/-- The pairs at the root, and the fields of each section, in another order. -/
def Rearranged (items items' : List Item) : Prop :=
  ∃ mid, items.Perm mid ∧ List.Forall₂ Alike mid items'

theorem Rearranged.keys (h : Rearranged items items') :
    (items.map Item.key).Perm (items'.map Item.key) := by
  obtain ⟨mid, hperm, halike⟩ := h
  refine (hperm.map _).trans ?_
  induction halike generalizing items with
  | nil => exact .nil
  | cons hab _ ih =>
    rw [List.map_cons, List.map_cons, hab.key]
    exact (ih (.refl _)).cons _

theorem Rearranged.fieldsOf (h : Rearranged items items') :
    (fieldsOf items).Perm (fieldsOf items') := by
  obtain ⟨mid, hperm, halike⟩ := h
  refine (hperm.flatMap_right _).trans ?_
  induction halike generalizing items with
  | nil => exact .nil
  | cons hab _ ih => exact hab.fields.append (ih (.refl _))

theorem Valid.perm {fields fields' : List (String × String)} (h : fields.Perm fields')
    (hvalid : Valid fields) : Valid fields' where
  known := fun f hf => hvalid.known f (h.mem_iff.2 hf)
  named := fun f hf => hvalid.named f (h.mem_iff.2 hf)
  distinct := (h.map _).nodup_iff.1 hvalid.distinct

theorem Says.perm {fields fields' : List (String × String)} {name : String}
    {default policy : SemicolonPolicy} (h : fields.Perm fields')
    (htold : Says fields name default policy) : Says fields' name default policy where
  required := fun hmem => htold.required (h.mem_iff.2 hmem)
  optional := fun hmem => htold.optional (h.mem_iff.2 hmem)
  absent := fun hnone => htold.absent fun hmem => hnone ((h.map _).mem_iff.1 hmem)

theorem Told.perm {fields fields' : List (String × String)} {policies : Policies}
    (h : fields.Perm fields') (htold : Told fields policies) : Told fields' policies where
  letStmt := htold.letStmt.perm h
  returnStmt := htold.returnStmt.perm h
  exprStmt := htold.exprStmt.perm h

theorem Acceptable.congr (hkeys : (items.map Item.key).Perm (items'.map Item.key))
    (hfields : (fieldsOf items).Perm (fieldsOf items')) (h : Acceptable items) :
    Acceptable items' where
  known := fun item hitem => by
    have hmem := hkeys.mem_iff.2 (List.mem_map_of_mem hitem)
    obtain ⟨item', hitem', hkey⟩ := List.mem_map.1 hmem
    exact hkey ▸ h.known item' hitem'
  once := hkeys.count_eq _ ▸ h.once
  valid := h.valid.perm hfields

theorem Rearranged.settings_eq_ok_iff (hc : c.Lawful) {d d' : Document} {settings : Settings}
    (hitems : items? d.root = some items) (hitems' : items? d'.root = some items')
    (h : Rearranged items items') : c.settings d = .ok settings ↔ c.settings d' = .ok settings := by
  rw [hc.settings_eq_ok_iff hitems, hc.settings_eq_ok_iff hitems']
  constructor
  · exact fun ⟨hok, htold⟩ => ⟨hok.congr h.keys h.fieldsOf, htold.perm h.fieldsOf⟩
  · exact fun ⟨hok, htold⟩ => ⟨hok.congr h.keys.symm h.fieldsOf.symm, htold.perm h.fieldsOf.symm⟩

theorem Decoder.read_eq_ok_iff {text : String} {d : Document} {settings : Settings}
    (hread : c.document? text = some d) :
    c.read text = .ok settings ↔ c.settings d = .ok settings := by
  have hdecode : c.read text = (c.settings d).mapError .content := by rw [read, hread]
  rw [hdecode]
  cases c.settings d <;> simp [Except.mapError]

/-- A text with one document whose root is a mapping gives settings if and only if each pair is
known, said once and well put. Each policy is then as its field says, or else its default. The order
of the pairs, at the root and in a section, decides nothing. -/
theorem read_sections (hc : c.Lawful) {text : String} {d : Document}
    (hread : c.document? text = some d) (hitems : items? d.root = some items) :
    ((∃ settings, c.read text = .ok settings) ↔ Acceptable items) ∧
    (∀ settings, c.read text = .ok settings → Told (fieldsOf items) settings.parser) ∧
    ∀ text' d' items', c.document? text' = some d' → items? d'.root = some items' →
      Rearranged items items' →
      ∀ settings, c.read text = .ok settings ↔ c.read text' = .ok settings := by
  refine ⟨⟨?_, ?_⟩, ?_, ?_⟩
  · rintro ⟨settings, hok⟩
    exact ((hc.settings_eq_ok_iff hitems).1 ((c.read_eq_ok_iff hread).1 hok)).1
  · intro hok
    obtain ⟨policies, htold⟩ := hok.valid.exists_told
    exact ⟨⟨policies⟩, (c.read_eq_ok_iff hread).2 ((hc.settings_eq_ok_iff hitems).2 ⟨hok, htold⟩)⟩
  · intro settings hok
    exact ((hc.settings_eq_ok_iff hitems).1 ((c.read_eq_ok_iff hread).1 hok)).2
  · intro text' d' items' hread' hitems' h settings
    rw [c.read_eq_ok_iff hread, c.read_eq_ok_iff hread']
    exact h.settings_eq_ok_iff hc hitems hitems'

/-- The texts of a section in two orders give the policies that it names, and the default of the
third; with a misspelled field there are no settings at all. -/
theorem read_sections_swapped :
    let text := "parser: \x7bexpression-semicolon: required, let-semicolon: 'optional'\x7d"
    let text' := "parser:\n  let-semicolon: optional\n  expression-semicolon: required\n"
    let misspelled := "parser:\n  let-semicolons: optional\n"
    Decoder.yaml.read text = .ok ⟨⟨.optional, .required, .required⟩⟩ ∧
    Decoder.yaml.read text' = .ok ⟨⟨.optional, .required, .required⟩⟩ ∧
    ∀ settings, Decoder.yaml.read misspelled ≠ .ok settings := by
  intro text text' misspelled
  let fields := [("expression-semicolon", "required"), ("let-semicolon", "optional")]
  have hdoc : (Decoder.yaml.document? text).bind (fun d => items? d.root) =
      some [.parser fields] := by decide +kernel
  have hdoc' : (Decoder.yaml.document? text').bind (fun d => items? d.root) =
      some [.parser fields.reverse] := by decide +kernel
  have hdoc'' : (Decoder.yaml.document? misspelled).bind (fun d => items? d.root) =
      some [.parser [("let-semicolons", "optional")]] := by decide +kernel
  obtain ⟨d, hread, hitems⟩ := Option.bind_eq_some_iff.1 hdoc
  obtain ⟨d', hread', hitems'⟩ := Option.bind_eq_some_iff.1 hdoc'
  obtain ⟨d'', hread'', hitems''⟩ := Option.bind_eq_some_iff.1 hdoc''
  obtain ⟨hok, htold, horder⟩ := read_sections Decoder.lawful_yaml hread hitems
  obtain ⟨hmisspelled, -, -⟩ := read_sections Decoder.lawful_yaml hread'' hitems''
  have hvalid : Valid fields := ⟨by decide, by decide, by decide⟩
  have hswap : Rearranged [.parser fields] [.parser fields.reverse] :=
    ⟨_, .refl _, .cons (.parser (List.reverse_perm _).symm) .nil⟩
  obtain ⟨settings, hsettings⟩ := hok.2 (acceptable_iff.2 (.inr ⟨fields, rfl, hvalid⟩))
  obtain ⟨hlet, hreturn, hexpr⟩ := htold settings hsettings
  obtain rfl : settings = ⟨⟨.optional, .required, .required⟩⟩ := by
    obtain ⟨⟨_, _, _⟩⟩ := settings
    obtain rfl := hlet.optional (by decide)
    obtain rfl := hreturn.absent (by decide)
    obtain rfl := hexpr.required (by decide)
    rfl
  have hsettings' := (horder text' d' _ hread' hitems' hswap _).1 hsettings
  refine ⟨hsettings, hsettings', fun settings hbad => ?_⟩
  have hknown := (hmisspelled.1 ⟨settings, hbad⟩).valid.known
  exact absurd (hknown ("let-semicolons", "optional") (by decide)) (by decide)

example : (read "\x7b\x7d").toOption = some ⟨⟨.required, .required, .optional⟩⟩ ∧
    (read "parser: \x7b\x7d").toOption = some ⟨⟨.required, .required, .optional⟩⟩ := by
  decide +kernel

end

end Settings

end LetLang
