import HomeTunnel.Engine.Raw
import HomeTunnel.Host.Keyset

/-! # Targets of strict decoding

`strictDecode` refuses an object that has two members of one name, and then lets the
decoder fill the target. The decoder finds the field of a member by its name up to case,
and a later member replaces what an earlier one has set. Here is what a decoder assigns,
for any target: which field is set from which member of which object.
-/

namespace HomeTunnel.Host

open JsonText GoJson

/-- A target that takes one value without members. -/
inductive Scalar
  | string | int | uint | bool | time
deriving DecidableEq, Repr

/-- What is decoded into. A pointer has the shape of what it points to; `any` is a raw message
or an interface, which keeps every member under its own name. -/
inductive Shape
  | scalar (kind : Scalar)
  | any
  | slice (element : Shape)
  | map (element : Shape)
  | struct (fields : List (String × Shape))

def Scalar.accepts (kind : Scalar) (doc : Doc) : Bool :=
  match kind with
  | .string => (decodeString doc "").isSome
  | .int => (decodeInt64 doc 0).isSome
  | .uint => (Engine.decodeUint64 doc 0).isSome
  | .bool => (decodeBool doc false).isSome
  | .time => (decodeTime doc zeroTime).isSome

def Shape.accepts : Shape → Doc → Bool
  | .scalar kind, doc => kind.accepts doc
  | .any, _ => true
  | _, _ => false

/-- The field of a member: the one of exactly that name, or the first one up to case. -/
def findShape (fields : List (String × Shape)) (name : String) : Option (String × Shape) :=
  match fields.find? fun f => f.1 = name with
  | some f => some f
  | none => fields.find? fun f => foldName f.1 = foldName name

mutual

/-- The fields of every structure have names of their own, also up to case. -/
def Shape.distinct : Shape → Bool
  | .scalar _ | .any => true
  | .slice element => element.distinct
  | .map element => element.distinct
  | .struct fields => (fields.map fun f => foldName f.1).Nodup && distinctFields fields

def distinctFields : List (String × Shape) → Bool
  | [] => true
  | (_, shape) :: fields => shape.distinct && distinctFields fields

end

/-- The object at that path of the document has set a field, or the entry of a map, from one of
its members. -/
structure Assignment where
  object : List Nat
  field : String
  member : Nat
deriving DecidableEq, Repr

mutual

/-- The assignments of a decoder, in order; `null` leaves every target as it is. -/
def Shape.assign (strict : Bool) (shape : Shape) (path : List Nat) : Doc → Option (List Assignment)
  | .null => some []
  | .obj members =>
    match shape with
    | .struct fields => assignMembers strict fields path 0 members
    | .map element => assignEntries strict element path 0 members
    | .any => some []
    | _ => none
  | .arr items =>
    match shape with
    | .slice element => assignItems strict element path 0 items
    | .any => some []
    | _ => none
  | doc => if shape.accepts doc then some [] else none

def assignItems (strict : Bool) (element : Shape) (path : List Nat) (index : Nat) :
    List Doc → Option (List Assignment)
  | [] => some []
  | item :: items =>
    match element.assign strict (path ++ [index]) item,
        assignItems strict element path (index + 1) items with
    | some first, some rest => some (first ++ rest)
    | _, _ => none

def assignEntries (strict : Bool) (element : Shape) (path : List Nat) (index : Nat) :
    List (List Piece × Doc) → Option (List Assignment)
  | [] => some []
  | (name, value) :: members =>
    match element.assign strict (path ++ [index]) value,
        assignEntries strict element path (index + 1) members with
    | some first, some rest => some (⟨path, string name, index⟩ :: (first ++ rest))
    | _, _ => none

def assignMembers (strict : Bool) (fields : List (String × Shape)) (path : List Nat) (index : Nat) :
    List (List Piece × Doc) → Option (List Assignment)
  | [] => some []
  | (name, value) :: members =>
    match findShape fields (string name) with
    | some f =>
      match f.2.assign strict (path ++ [index]) value,
          assignMembers strict fields path (index + 1) members with
      | some first, some rest => some (⟨path, f.1, index⟩ :: (first ++ rest))
      | _, _ => none
    | none => if strict then none else assignMembers strict fields path (index + 1) members

end

/-- What `strictDecode` assigns when it succeeds. -/
def strictAssign (strict : Bool) (target : Shape) (data : Bytes) : Option (List Assignment) :=
  strictDecode data (fun doc _ => target.assign strict [] doc) []

def Assignment.key (a : Assignment) : List Nat × String := (a.object, a.field)

/-- No field is set from two members of one object. -/
def SetOnce (log : List Assignment) : Prop := (log.map Assignment.key).Nodup

instance (log : List Assignment) : Decidable (SetOnce log) :=
  inferInstanceAs (Decidable (List.Nodup _))

/-! ## Names that differ only in case -/

/-- Two names of one field that differ only in case. -/
def Variants (fields : List (String × Shape)) (a b : String) : Prop :=
  (findShape fields a).isSome ∧ a ≠ b ∧ foldName a = foldName b

instance (fields : List (String × Shape)) (a b : String) : Decidable (Variants fields a b) :=
  inferInstanceAs (Decidable (_ ∧ _ ∧ _))

mutual

/-- No object that is read into a structure has two names of one field that differ only in
case. -/
def Shape.caseDistinct (shape : Shape) : Doc → Bool
  | .obj members =>
    match shape with
    | .struct fields =>
      ((valueMembers members).map Prod.fst).Pairwise (fun a b => ¬ Variants fields a b) &&
        caseDistinctMembers fields members
    | .map element => caseDistinctEntries element members
    | _ => true
  | .arr items =>
    match shape with
    | .slice element => caseDistinctItems element items
    | _ => true
  | _ => true

def caseDistinctItems (element : Shape) : List Doc → Bool
  | [] => true
  | item :: items => element.caseDistinct item && caseDistinctItems element items

def caseDistinctEntries (element : Shape) : List (List Piece × Doc) → Bool
  | [] => true
  | (_, value) :: members => element.caseDistinct value && caseDistinctEntries element members

def caseDistinctMembers (fields : List (String × Shape)) : List (List Piece × Doc) → Bool
  | [] => true
  | (name, value) :: members =>
    (match findShape fields (string name) with
      | some f => f.2.caseDistinct value
      | none => true) && caseDistinctMembers fields members

end

/-- The same of a text. -/
def CaseDistinct (target : Shape) (data : Bytes) : Prop :=
  ∀ text doc, Utf8.decode data = some text → parse text = some doc → target.caseDistinct doc = true

variable {fields : List (String × Shape)} {name : String} {f : String × Shape} {a : Assignment}
  {path : List Nat} {index : Nat} {first rest : List Assignment}

theorem findShape_mem (h : findShape fields name = some f) : f ∈ fields := by
  unfold findShape at h
  split at h
  · rename_i g hg
    cases h
    exact List.mem_of_find?_eq_some hg
  · exact List.mem_of_find?_eq_some h

theorem findShape_fold (h : findShape fields name = some f) : foldName f.1 = foldName name := by
  unfold findShape at h
  split at h
  · rename_i g hg
    cases h
    have hname := List.find?_some hg
    rw [decide_eq_true_eq] at hname
    rw [hname]
  · simpa using List.find?_some h

theorem findShape_ne_none {other : String} (h : findShape fields name = some f)
    (hfold : foldName other = foldName name) : findShape fields other ≠ none := by
  intro hnone
  unfold findShape at hnone
  split at hnone
  · cases hnone
  · have hno := List.find?_eq_none.mp hnone f (findShape_mem h)
    rw [decide_eq_true_eq, hfold, findShape_fold h] at hno
    exact hno rfl

theorem distinct_of_mem (h : distinctFields fields = true) (hmem : f ∈ fields) :
    f.2.distinct = true := by
  induction fields with
  | nil => cases hmem
  | cons g fields ih =>
    rw [distinctFields, Bool.and_eq_true] at h
    rcases List.mem_cons.mp hmem with rfl | hmem
    · exact h.1
    · exact ih h.2 hmem

/-- Where names are distinct, two members have one field exactly when their names fold alike. -/
theorem findShape_eq_iff {a b : String} {g : String × Shape}
    (hdistinct : (fields.map fun f => foldName f.1).Nodup) (hf : findShape fields a = some f)
    (hg : findShape fields b = some g) : f.1 = g.1 ↔ foldName a = foldName b := by
  rw [← findShape_fold hf, ← findShape_fold hg]
  constructor
  · intro h
    rw [h]
  · intro h
    have hsame : f = g :=
      List.inj_on_of_nodup_map hdistinct (findShape_mem hf) (findShape_mem hg) h
    rw [hsame]

/-- The fields that are set by members of this object, in order. -/
def ownFields (path : List Nat) (log : List Assignment) : List String :=
  (log.filter fun a => a.object = path).map Assignment.field

/-- The object of the assignment lies at or below the path, in a member from `index` on. -/
def Below (path : List Nat) (index : Nat) (a : Assignment) : Prop :=
  a.object = path ∨ ∃ k rest, index ≤ k ∧ a.object = path ++ k :: rest

theorem Below.of_child {k : Nat} (h : Below (path ++ [index]) k a) :
    ∃ rest, a.object = path ++ index :: rest := by
  rcases h with h | ⟨k, rest, _, h⟩
  · exact ⟨[], h⟩
  · exact ⟨k :: rest, by rw [h, List.append_assoc]; rfl⟩

theorem Below.mono {k : Nat} (hle : k ≤ index) (h : Below path index a) : Below path k a := by
  rcases h with h | ⟨j, rest, hj, h⟩
  · exact Or.inl h
  · exact Or.inr ⟨j, rest, Nat.le_trans hle hj, h⟩

/-- What a member sets below its own place is set by no later member. -/
theorem child_ne_later {b : Assignment} (ha : ∃ rest, a.object = path ++ index :: rest)
    (hb : Below path (index + 1) b) : a.object ≠ b.object := by
  obtain ⟨rest, ha⟩ := ha
  rw [ha]
  rcases hb with hb | ⟨k, rest', hk, hb⟩
  · rw [hb]
    intro h
    have hlength := congrArg List.length h
    simp at hlength
  · rw [hb]
    intro h
    have htail := List.append_cancel_left h
    rw [List.cons.injEq] at htail
    omega

theorem setOnce_append (h : ∀ a ∈ first, ∀ b ∈ rest, a.object ≠ b.object) :
    SetOnce (first ++ rest) ↔ SetOnce first ∧ SetOnce rest := by
  unfold SetOnce
  rw [List.map_append, List.nodup_append]
  constructor
  · rintro ⟨hfirst, hrest, _⟩
    exact ⟨hfirst, hrest⟩
  · rintro ⟨hfirst, hrest⟩
    refine ⟨hfirst, hrest, ?_⟩
    intro a ha b hb hab
    obtain ⟨x, hx, rfl⟩ := List.mem_map.mp ha
    obtain ⟨y, hy, rfl⟩ := List.mem_map.mp hb
    exact h x hx y hy (congrArg Prod.fst hab)

theorem mem_ownFields {log : List Assignment} {field : String} :
    field ∈ ownFields path log ↔ (path, field) ∈ log.map Assignment.key := by
  unfold ownFields
  rw [List.mem_map, List.mem_map]
  constructor
  · rintro ⟨a, ha, rfl⟩
    obtain ⟨hmem, hobject⟩ := List.mem_filter.mp ha
    rw [decide_eq_true_eq] at hobject
    exact ⟨a, hmem, by rw [Assignment.key, hobject]⟩
  · rintro ⟨a, hmem, hkey⟩
    rw [Assignment.key, Prod.mk.injEq] at hkey
    exact ⟨a, List.mem_filter.mpr ⟨hmem, by simpa using hkey.1⟩, hkey.2⟩

/-! ## What a decoder assigns -/

theorem setOnce_elements (hfirst : ∀ a ∈ first, Below (path ++ [index]) 0 a)
    (hrest : ∀ b ∈ rest, Below path (index + 1) b) :
    (∀ a ∈ first ++ rest, Below path index a) ∧
      (SetOnce (first ++ rest) ↔ SetOnce first ∧ SetOnce rest) := by
  constructor
  · intro a ha
    rcases List.mem_append.mp ha with ha | ha
    · obtain ⟨tail, htail⟩ := (hfirst a ha).of_child
      exact Or.inr ⟨index, tail, Nat.le_refl index, htail⟩
    · exact (hrest a ha).mono (Nat.le_succ index)
  · exact setOnce_append fun a ha b hb => child_ne_later (hfirst a ha).of_child (hrest b hb)

theorem setOnce_member (key : String) (hfirst : ∀ a ∈ first, Below (path ++ [index]) 0 a)
    (hrest : ∀ b ∈ rest, Below path (index + 1) b) :
    (∀ a ∈ (⟨path, key, index⟩ : Assignment) :: (first ++ rest), Below path index a) ∧
      ownFields path (⟨path, key, index⟩ :: (first ++ rest)) = key :: ownFields path rest ∧
      (SetOnce (⟨path, key, index⟩ :: (first ++ rest)) ↔
        key ∉ ownFields path rest ∧ SetOnce first ∧ SetOnce rest) := by
  obtain ⟨hall, happend⟩ := setOnce_elements hfirst hrest
  have hdeeper : ∀ a ∈ first, a.object ≠ path := by
    intro a ha heq
    obtain ⟨tail, htail⟩ := (hfirst a ha).of_child
    have hlength := congrArg List.length (htail.symm.trans heq)
    simp at hlength
  have hown : ownFields path (first ++ rest) = ownFields path rest := by
    unfold ownFields
    rw [List.filter_append, List.filter_eq_nil_iff.mpr fun a ha => by simpa using hdeeper a ha,
      List.nil_append]
  refine ⟨?_, ?_, ?_⟩
  · intro a ha
    rcases List.mem_cons.mp ha with rfl | ha
    · exact Or.inl rfl
    · exact hall a ha
  · unfold ownFields at hown ⊢
    rw [List.filter_cons_of_pos (by simp), List.map_cons, hown]
  · rw [← hown, mem_ownFields, ← happend]
    unfold SetOnce
    rw [List.map_cons, List.nodup_cons]
    rfl

/-- Of distinct names, a later one sets the same field exactly if it is a variant of the first. -/
theorem variants_iff {names : List String} (hf : findShape fields name = some f)
    (hname : name ∉ names) :
    (¬ ∃ other ∈ names, foldName other = foldName name) ↔
      ∀ other ∈ names, ¬ Variants fields name other := by
  constructor
  · intro h other hother hvariants
    exact h ⟨other, hother, hvariants.2.2.symm⟩
  · rintro h ⟨other, hother, hfold⟩
    refine h other hother ⟨by rw [hf]; rfl, ?_, hfold.symm⟩
    rintro rfl
    exact hname hother

mutual

theorem assign_spec (strict : Bool) (shape : Shape) (hdistinct : shape.distinct = true)
    (path : List Nat) (doc : Doc) (hlimits : withinLimits doc.value = true) {log : List Assignment}
    (h : shape.assign strict path doc = some log) :
    (∀ a ∈ log, Below path 0 a) ∧ (SetOnce log ↔ shape.caseDistinct doc = true) := by
  cases doc with
  | obj members =>
    rw [Doc.value, withinLimits, Bool.and_eq_true, Bool.and_eq_true, decide_eq_true_eq,
      decide_eq_true_eq] at hlimits
    obtain ⟨⟨_, hnodup⟩, hmembers⟩ := hlimits
    cases shape with
    | struct fields =>
      rw [Shape.distinct, Bool.and_eq_true, decide_eq_true_eq] at hdistinct
      rw [Shape.assign] at h
      obtain ⟨hbelow, _, honce⟩ :=
        assignMembers_spec strict fields hdistinct.1 hdistinct.2 path 0 members hnodup hmembers h
      refine ⟨hbelow, honce.trans ?_⟩
      rw [Shape.caseDistinct, Bool.and_eq_true, decide_eq_true_eq]
    | map element =>
      rw [Shape.distinct] at hdistinct
      rw [Shape.assign] at h
      rw [Shape.caseDistinct]
      obtain ⟨hbelow, _, honce⟩ :=
        assignEntries_spec strict element hdistinct path 0 members hnodup hmembers h
      exact ⟨hbelow, honce⟩
    | any =>
      rw [Shape.assign] at h
      cases h
      simp [SetOnce, Shape.caseDistinct]
    | _ => simp [Shape.assign] at h
  | arr items =>
    rw [Doc.value, withinLimits, Bool.and_eq_true] at hlimits
    cases shape with
    | slice element =>
      rw [Shape.distinct] at hdistinct
      rw [Shape.assign] at h
      rw [Shape.caseDistinct]
      exact assignItems_spec strict element hdistinct path 0 items hlimits.2 h
    | any =>
      rw [Shape.assign] at h
      cases h
      simp [SetOnce, Shape.caseDistinct]
    | _ => simp [Shape.assign] at h
  | null =>
    simp only [Shape.assign] at h
    cases h
    simp [SetOnce, Shape.caseDistinct]
  | _ =>
    simp only [Shape.assign] at h
    split at h
    · cases h
      simp [SetOnce, Shape.caseDistinct]
    · cases h

theorem assignItems_spec (strict : Bool) (element : Shape) (hdistinct : element.distinct = true)
    (path : List Nat) (index : Nat) (items : List Doc)
    (hlimits : itemsWithinLimits (valueItems items) = true) {log : List Assignment}
    (h : assignItems strict element path index items = some log) :
    (∀ a ∈ log, Below path index a) ∧ (SetOnce log ↔ caseDistinctItems element items = true) := by
  match items with
  | [] =>
    rw [assignItems] at h
    cases h
    simp [SetOnce, caseDistinctItems]
  | item :: items =>
    rw [valueItems, itemsWithinLimits, Bool.and_eq_true] at hlimits
    rw [assignItems] at h
    split at h
    · rename_i first rest hfirst hrest
      cases h
      obtain ⟨hbelow, honce⟩ :=
        assign_spec strict element hdistinct (path ++ [index]) item hlimits.1 hfirst
      obtain ⟨hlater, hrestOnce⟩ :=
        assignItems_spec strict element hdistinct path (index + 1) items hlimits.2 hrest
      obtain ⟨hall, happend⟩ := setOnce_elements hbelow hlater
      refine ⟨hall, ?_⟩
      rw [happend, honce, hrestOnce, caseDistinctItems, Bool.and_eq_true]
    · cases h

theorem assignEntries_spec (strict : Bool) (element : Shape) (hdistinct : element.distinct = true)
    (path : List Nat) (index : Nat) (members : List (List Piece × Doc))
    (hnodup : ((valueMembers members).map Prod.fst).Nodup)
    (hlimits : membersWithinLimits (valueMembers members) = true) {log : List Assignment}
    (h : assignEntries strict element path index members = some log) :
    (∀ a ∈ log, Below path index a) ∧ ownFields path log = (valueMembers members).map Prod.fst ∧
      (SetOnce log ↔ caseDistinctEntries element members = true) := by
  match members with
  | [] =>
    rw [assignEntries] at h
    cases h
    simp [SetOnce, caseDistinctEntries, ownFields, valueMembers]
  | (name, value) :: members =>
    rw [valueMembers, membersWithinLimits, Bool.and_eq_true] at hlimits
    rw [valueMembers, List.map_cons, List.nodup_cons] at hnodup
    rw [assignEntries] at h
    split at h
    · rename_i first rest hfirst hrest
      cases h
      obtain ⟨hbelow, honce⟩ :=
        assign_spec strict element hdistinct (path ++ [index]) value hlimits.1 hfirst
      obtain ⟨hlater, hown, hrestOnce⟩ :=
        assignEntries_spec strict element hdistinct path (index + 1) members hnodup.2 hlimits.2 hrest
      obtain ⟨hall, hownAll, hcons⟩ := setOnce_member (string name) hbelow hlater
      refine ⟨hall, ?_, ?_⟩
      · rw [hownAll, hown, valueMembers, List.map_cons]
      · rw [hcons, hown, honce, hrestOnce, caseDistinctEntries, Bool.and_eq_true]
        exact and_iff_right hnodup.1
    · cases h

theorem assignMembers_spec (strict : Bool) (fields : List (String × Shape))
    (hnames : (fields.map fun f => foldName f.1).Nodup) (hfields : distinctFields fields = true)
    (path : List Nat) (index : Nat) (members : List (List Piece × Doc))
    (hnodup : ((valueMembers members).map Prod.fst).Nodup)
    (hlimits : membersWithinLimits (valueMembers members) = true) {log : List Assignment}
    (h : assignMembers strict fields path index members = some log) :
    (∀ a ∈ log, Below path index a) ∧
      (∀ name f, findShape fields name = some f → (f.1 ∈ ownFields path log ↔
        ∃ other ∈ (valueMembers members).map Prod.fst, foldName other = foldName name)) ∧
      (SetOnce log ↔
        ((valueMembers members).map Prod.fst).Pairwise (fun a b => ¬ Variants fields a b) ∧
          caseDistinctMembers fields members = true) := by
  match members with
  | [] =>
    rw [assignMembers] at h
    cases h
    simp [SetOnce, caseDistinctMembers, ownFields, valueMembers]
  | (pieces, value) :: members =>
    rw [valueMembers, membersWithinLimits, Bool.and_eq_true] at hlimits
    rw [valueMembers, List.map_cons, List.nodup_cons] at hnodup
    rw [assignMembers] at h
    rw [valueMembers, List.map_cons, List.pairwise_cons, caseDistinctMembers, Bool.and_eq_true]
    split at h
    · rename_i f hf
      split at h
      · rename_i first rest hfirst hrest
        cases h
        have hshape := distinct_of_mem hfields (findShape_mem hf)
        obtain ⟨hbelow, honce⟩ := assign_spec strict f.2 hshape (path ++ [index]) value hlimits.1 hfirst
        obtain ⟨hlater, hown, hrestOnce⟩ := assignMembers_spec strict fields hnames hfields path
          (index + 1) members hnodup.2 hlimits.2 hrest
        obtain ⟨hall, hownAll, hcons⟩ := setOnce_member f.1 hbelow hlater
        refine ⟨hall, ?_, ?_⟩
        · intro name g hg
          rw [hownAll, List.mem_cons, hown name g hg, findShape_eq_iff hnames hg hf,
            List.exists_mem_cons_iff]
          exact or_congr eq_comm Iff.rfl
        · rw [hcons, hown _ f hf, variants_iff hf hnodup.1, honce, hrestOnce]
          tauto
      · cases h
    · rename_i hnone
      split at h
      · cases h
      · obtain ⟨hlater, hown, hrestOnce⟩ := assignMembers_spec strict fields hnames hfields path
          (index + 1) members hnodup.2 hlimits.2 h
        refine ⟨fun a ha => (hlater a ha).mono (Nat.le_succ index), ?_, ?_⟩
        · intro name g hg
          rw [hown name g hg, List.exists_mem_cons_iff]
          refine (or_iff_right ?_).symm
          intro hfold
          exact absurd hnone (findShape_ne_none hg hfold)
        · have hfirst : ∀ other ∈ (valueMembers members).map Prod.fst,
              ¬ Variants fields (string pieces) other := by
            intro other _ hvariants
            have hsome := hvariants.1
            rw [hnone] at hsome
            cases hsome
          rw [hrestOnce, and_iff_right hfirst]
          simp

end

end HomeTunnel.Host
