/-
# What is written is read back

A value survives as some JSON if a reader makes the value of it again and the JSON fits into a
text.  Each way to put JSON together has a lemma here: when the parts of a value survive as the
parts of the JSON, the value survives as the whole.

The fields of a record are read one after the other by readers that are put together with `<*>`.
A record's fields survive as members if each check of the record stands for one member, in
order, and the record can be made from every list in which the members can be looked up.
-/
import StagedRollout.Json.Rows
import StagedRollout.Proofs.Json.Text

namespace StagedRollout

namespace OrderedMap

variable {α : Type}

lemma insertEntry_of_lt {key : String} {value : α} {l : List (String × α)}
    (h : ∀ e ∈ l, e.1 < key) : insertEntry key value l = l ++ [(key, value)] := by
  induction l with
  | nil => rfl
  | cons e l ih =>
    have he := h e (by simp)
    have hne : e.1 ≠ key := fun heq => String.lt_irrefl key (heq ▸ he)
    simp [insertEntry, String.lt_asymm he, hne, ih fun e' he' => h e' (List.mem_cons_of_mem _ he')]

/-- A map is made of its entries. -/
lemma ofList_entries (m : OrderedMap α) : ofList m.entries = m := by
  suffices h : ∀ (l : List (String × α)) (acc : OrderedMap α),
      (acc.entries ++ l).Pairwise (fun a b => a.1 < b.1) →
      (l.foldl (fun m e => m.insert e.1 e.2) acc).entries = acc.entries ++ l by
    have hentries := h m.entries empty m.ascending
    exact ext_find? fun k => by rw [find?, ofList, hentries]; rfl
  intro l
  induction l with
  | nil => simp
  | cons e l ih =>
    intro acc hpairs
    have hlast := (List.pairwise_append.1 hpairs).2.2
    have hinsert : (acc.insert e.1 e.2).entries = acc.entries ++ [e] :=
      insertEntry_of_lt fun a ha => hlast a ha e (by simp)
    rw [List.foldl_cons, ih _ (by simpa [hinsert] using hpairs), hinsert]
    simp

end OrderedMap

namespace Json

variable {α β : Type} {room : Nat}

/-- The JSON fits into a text, and a reader makes a value of it. -/
structure Survives (room : Nat) (read : Reader α) (j : Json) (a : α) : Prop where
  fits : Fits room j
  reads : read (Draft.ofJson j) = .ok a

namespace Survives

/-- What survives as JSON survives as the text of it. -/
lemma ofText {read : Reader α} {j : Json} {a : α} (h : Survives depthLimit read j a) :
    read.ofText j.compact = .ok a := by
  rw [ofText_compact read h.fits, h.reads]

/-! ## Simple values -/

lemma text (s : String) : Survives room Reader.text (.str s) s := ⟨.str s, rfl⟩

lemma bool (b : Bool) : Survives room Reader.bool (.bool b) b := ⟨.bool b, rfl⟩

lemma nat {limit n : Nat} (hlimit : limit ≤ Text.max64) (h : n ≤ limit) :
    Survives room (Reader.nat limit) (.nat n) n :=
  ⟨.nat (Nat.le_trans h hlimit), Reader.nat_ofJson h⟩

lemma nat32 {n : Nat} (h : n ≤ Text.max32) : Survives room Reader.nat32 (.nat n) n :=
  nat (by decide) h

lemma nat64 {n : Nat} (h : n ≤ Text.max64) : Survives room Reader.nat64 (.nat n) n :=
  nat (Nat.le_refl _) h

lemma option {encode : α → Json} {read : Reader α} {o : Option α}
    (h : ∀ a ∈ o, Survives room read (encode a) a)
    (hn : ∀ a ∈ o, Draft.ofJson (encode a) ≠ .null) :
    Survives room (Reader.option read) (ofOption encode o) o := by
  refine ⟨?_, Reader.option_ofOption (fun a ha => (h a ha).reads) hn⟩
  cases o with
  | none => exact .null
  | some a => exact (h a rfl).fits

lemma list {encode : α → Json} {read : Reader α} {l : List α}
    (h : ∀ a ∈ l, Survives room read (encode a) a) :
    Survives (room + 1) (Reader.list read) (ofList encode l) l := by
  refine ⟨.arr fun j hj => ?_, Reader.list_ofList fun a ha => (h a ha).reads⟩
  obtain ⟨a, ha, rfl⟩ := List.mem_map.1 hj
  exact (h a ha).fits

lemma pair {first : Reader α} {second : Reader β} {j k : Json} {a : α} {b : β}
    (h : Survives room first j a) (h' : Survives room second k b) :
    Survives (room + 1) (Reader.pair first second) (.arr [j, k]) (a, b) := by
  refine ⟨.arr fun i hi => ?_, ?_⟩
  · obtain rfl | rfl : i = j ∨ i = k := by simpa using hi
    exacts [h.fits, h'.fits]
  · show Reader.pair first second (.arr [Draft.ofJson j, Draft.ofJson k]) = _
    simp [Reader.pair, Reader.next, h.reads, h'.reads, Reader.finish]

/-- A map of texts survives as the object with its entries. -/
lemma textMap (m : OrderedMap String) : Survives (room + 1) Reader.textMap
    (.obj (m.entries.map fun e => (e.1, .str e.2))) m := by
  refine ⟨.obj fun e he => ?_, ?_⟩
  · obtain ⟨e', -, rfl⟩ := List.mem_map.1 he
    exact .str _
  · have hentries : ∀ l : List (String × String),
        (Draft.ofMembers (l.map fun e => (e.1, .str e.2))).mapM Reader.textMember = .ok l := by
      intro l
      induction l with
      | nil => rfl
      | cons e l ih =>
        simp only [List.map_cons, Draft.ofMembers, List.mapM_cons, ih]
        rfl
    rw [Draft.ofJson, Reader.textMap, hentries]
    exact congrArg Except.ok m.ofList_entries

end Survives

/-! ## Records -/

namespace Fields

/-- The fields of a record are read from members, each of which fits.  The members are listed
from the last one on, as the readers of fields are put together. -/
structure Reads (room : Nat) (f : Fields α) (members : List (String × Json)) (a : α) : Prop where
  fits : ∀ m ∈ members, Fits room m.2
  checks : List.Forall₂ (fun c m => c.1 = m.1 ∧ c.2 (Draft.ofJson m.2) = .ok ()) f.checks
    members.reverse
  ofMembers : ∀ all : List (String × Draft),
    (∀ m ∈ members, all.lookup m.1 = some (Draft.ofJson m.2)) → f.ofMembers all = .ok a

namespace Reads

lemma constant (a : α) : Reads room (pure a) [] a := ⟨by simp, .nil, fun _ _ => rfl⟩

/-- One field more. -/
lemma field {f : Fields (α → β)} {ms : List (String × Json)} {g : α → β} {name : String}
    {read : Reader α} {absent ending : Except Fault α} {j : Json} {a : α}
    (hf : Reads room f ms g) (h : Survives room read j a) :
    Reads room (f <*> Fields.single name read absent ending) ((name, j) :: ms) (g a) where
  fits m hm := by
    obtain rfl | hm := List.mem_cons.1 hm
    exacts [h.fits, hf.fits m hm]
  checks := by
    rw [List.reverse_cons]
    exact List.rel_append hf.checks (.cons ⟨rfl, by simp [h.reads]⟩ .nil)
  ofMembers all hall := by
    have hg := hf.ofMembers all fun m hm => hall m (List.mem_cons_of_mem _ hm)
    have hmember : all.lookup name = some (Draft.ofJson j) := hall (name, j) (by simp)
    have ha : (Fields.single name read absent ending).ofMembers all = .ok a := by
      simp [Fields.single, hmember, h.reads]
    show (do return (← f.ofMembers all) (← (Fields.single name read absent ending).ofMembers all))
      = .ok (g a)
    simp [hg, ha]

/-- The first field of a record. -/
lemma first {name : String} {read : Reader α} {absent ending : Except Fault α} {j : Json} {a : α}
    (make : α → β) (h : Survives room read j a) :
    Reads room (make <$> Fields.single name read absent ending) [(name, j)] (make a) :=
  (constant make).field h

/-- A value that is made of a record has the record's fields. -/
lemma map {f : Fields α} {ms : List (String × Json)} {a : α} (make : α → β)
    (hf : Reads room f ms a) : Reads room (make <$> f) ms (make a) where
  fits := hf.fits
  checks := hf.checks
  ofMembers all hall := by
    show (do return make (← f.ofMembers all)) = .ok (make a)
    simp [hf.ofMembers all hall]

/-! ### Members that are sifted -/

lemma lookup_check {checks : List (String × Reader Unit)} {members : List (String × Json)}
    (h : List.Forall₂ (fun c m => c.1 = m.1 ∧ c.2 (Draft.ofJson m.2) = .ok ()) checks members)
    (hnames : (checks.map Prod.fst).Nodup) :
    ∀ m ∈ members, ∃ check, checks.lookup m.1 = some check ∧ check (Draft.ofJson m.2) = .ok () := by
  induction h with
  | nil => simp
  | @cons c m cs ms hc hcs ih =>
    obtain ⟨hnotin, hnames⟩ := List.nodup_cons.1 hnames
    intro m' hm'
    obtain rfl | hm' := List.mem_cons.1 hm'
    · exact ⟨c.2, by simp [List.lookup, hc.1], hc.2⟩
    · obtain ⟨check, hlookup, hcheck⟩ := ih hnames m' hm'
      have hne : m'.1 ≠ c.1 := by
        obtain ⟨l₁, l₂, rfl, -⟩ := List.lookup_eq_some_iff.1 hlookup
        intro heq
        exact hnotin (by simp [← heq])
      exact ⟨check, by simpa [List.lookup, beq_false_of_ne hne] using hlookup, hcheck⟩

lemma sift_ofMembers {checks : List (String × Reader Unit)} {ms : List (String × Json)}
    (hchecks : ∀ m ∈ ms, ∃ check,
      checks.lookup m.1 = some check ∧ check (Draft.ofJson m.2) = .ok ())
    (hnames : (ms.map Prod.fst).Nodup) (seen : List String)
    (hseen : ∀ name ∈ seen, name ∉ ms.map Prod.fst) :
    sift checks seen (Draft.ofMembers ms) = .ok (ms.map fun m => (m.1, Draft.ofJson m.2)) := by
  induction ms generalizing seen with
  | nil => rfl
  | cons m ms ih =>
    obtain ⟨hnotin, hnames⟩ := List.nodup_cons.1 hnames
    obtain ⟨check, hlookup, hcheck⟩ := hchecks m (by simp)
    have hnew : m.1 ∉ seen := fun hin => hseen m.1 hin (by simp)
    have hrest := ih (fun m' hm' => hchecks m' (List.mem_cons_of_mem _ hm')) hnames
      (m.1 :: seen) fun name hname => by
        obtain rfl | hname := List.mem_cons.1 hname
        · exact hnotin
        · exact fun hin => hseen name hname (List.mem_cons_of_mem _ hin)
    simp [Draft.ofMembers, sift, Reader.name, hlookup, hnew, hcheck, hrest]

lemma lookup_members {ms : List (String × Json)} (hnames : (ms.map Prod.fst).Nodup) :
    ∀ m ∈ ms, (ms.map fun m => (m.1, Draft.ofJson m.2)).lookup m.1 = some (Draft.ofJson m.2) := by
  induction ms with
  | nil => simp
  | cons m ms ih =>
    obtain ⟨hnotin, hnames⟩ := List.nodup_cons.1 hnames
    intro m' hm'
    obtain rfl | hm' := List.mem_cons.1 hm'
    · simp
    · have hne : m'.1 ≠ m.1 := fun heq => hnotin (heq ▸ List.mem_map_of_mem hm')
      simpa [List.lookup, beq_false_of_ne hne] using ih hnames m' hm'

lemma names_eq {f : Fields α} {ms : List (String × Json)} {a : α} (h : Reads room f ms a) :
    f.checks.map Prod.fst = ms.reverse.map Prod.fst := by
  have hpairs := h.checks
  generalize ms.reverse = ms at hpairs
  clear h
  generalize f.checks = checks at hpairs
  induction hpairs with
  | nil => rfl
  | cons hc _ ih => simp [hc.1, ih]

/-- The object with the members gives the record, unless two fields have one name. -/
lemma ofObject {f : Fields α} {ms : List (String × Json)} {a : α} (h : Reads room f ms a)
    (hnames : (f.checks.map Prod.fst).Nodup) : f.ofObject (Draft.ofMembers ms.reverse) = .ok a := by
  have hnames' := h.names_eq ▸ hnames
  rw [Fields.ofObject, sift_ofMembers (lookup_check h.checks hnames) hnames' [] (by simp)]
  exact h.ofMembers _ fun m hm => lookup_members hnames' m (List.mem_reverse.2 hm)

/-- A record survives as the object with its fields. -/
lemma survives {f : Fields α} {ms : List (String × Json)} {a : α} (h : Reads room f ms a)
    (hnames : (f.checks.map Prod.fst).Nodup) :
    Survives (room + 1) f.reader (.obj ms.reverse) a :=
  ⟨.obj fun m hm => h.fits m (List.mem_reverse.1 hm), h.ofObject hnames⟩

end Reads

end Fields

/-! ## Choices -/

namespace Survives

variable {table : String → Option (Choice α)} {kept : Bool} {s : String} {a : α}

/-- A choice that holds nothing survives as its name. -/
lemma bare (h : table s = some (.bare a)) : Survives room (Choice.reader table kept) (.str s) a :=
  ⟨.str s, by simp [Draft.ofJson, Choice.reader, h, Reader.known]⟩

/-- A choice survives as the object with its name and what it holds. -/
lemma holding {read : Reader α} {j : Json} (h : table s = some (.holding read))
    (hj : Survives room read j a) :
    Survives (room + 1) (Choice.reader table kept) (.obj [(s, j)]) a := by
  refine ⟨.obj (by simpa using hj.fits), ?_⟩
  simp [Draft.ofJson, Draft.ofMembers, Choice.reader, Choice.key, Choice.content, h, hj.reads,
    Reader.known, Reader.finish]

/-- What is made of a value survives as that value. -/
lemma make {read : Reader α} {j : Json} (f : α → β) (h : Survives room read j a) :
    Survives room (fun d => f <$> read d) j (f a) :=
  ⟨h.fits, by simp only [h.reads]; rfl⟩

lemma named [Named α] (a : α) : Survives room Named.reader (Named.toJson a) a :=
  bare (by simp)

/-! ## Tagged values -/

/-- A tagged value survives as the object with its tag and its content. -/
lemma tagged {tag content : String} {table : Bool → String → Option (Choice α)} {read : Reader α}
    {j : Json} (hne : content ≠ tag) (h : table false s = some (.holding read))
    (hj : Survives room read j a) :
    Survives (room + 1) (Tagged.reader tag content table)
      (.obj [(tag, .str s), (content, j)]) a := by
  refine ⟨.obj ?_, ?_⟩
  · simpa using ⟨Fits.str s, hj.fits⟩
  · simp [Draft.ofJson, Draft.ofMembers, Tagged.reader, Tagged.ofObject, Tagged.relevant,
      Reader.name, Choice.word, Choice.reader, Choice.content, Reader.known, h, hne, hj.reads,
      Tagged.finish]

/-- A tagged value that holds nothing survives as the object with its tag. -/
lemma taggedBare {tag content : String} {table : Bool → String → Option (Choice α)}
    (h : table false s = some (.bare a)) :
    Survives (room + 1) (Tagged.reader tag content table) (.obj [(tag, .str s)]) a := by
  refine ⟨.obj (by simpa using Fits.str s), ?_⟩
  simp [Draft.ofJson, Draft.ofMembers, Tagged.reader, Tagged.ofObject, Tagged.relevant,
    Reader.name, Choice.word, Choice.reader, Reader.known, h]

lemma divide_ofMembers {tag : String} (table : String → Option (Fields α)) (f : Fields α)
    {ms : List (String × Json)} (htag : tag ∉ ms.map Prod.fst) :
    Tagged.divide tag table (some f) (Draft.ofMembers ms) = .ok (some f, Draft.ofMembers ms) := by
  induction ms with
  | nil => rfl
  | cons m ms ih =>
    simp only [List.map_cons, List.mem_cons, not_or] at htag
    simp [Draft.ofMembers, Tagged.divide, Reader.name, Ne.symm htag.1, Reader.keep,
      Draft.isReadable_ofJson, ih htag.2]

/-- A value survives as the object with its tag and its fields. -/
lemma besideFields {tag : String} {table : String → Option (Fields α)} {f : Fields α}
    {ms : List (String × Json)} (h : table s = some f) (hms : Fields.Reads room f ms a)
    (hnames : (f.checks.map Prod.fst).Nodup) (htag : tag ∉ f.checks.map Prod.fst) :
    Survives (room + 1) (Tagged.besideFields tag table)
      (.obj ((tag, .str s) :: ms.reverse)) a := by
  refine ⟨.obj fun m hm => ?_, ?_⟩
  · obtain rfl | hm := List.mem_cons.1 hm
    exacts [.str s, hms.fits m (List.mem_reverse.1 hm)]
  · have hdivide := divide_ofMembers table f (hms.names_eq ▸ htag)
    simp [Draft.ofJson, Draft.ofMembers, Tagged.besideFields, Tagged.divide, Reader.name,
      Reader.text, Reader.known, h, hdivide, hms.ofObject hnames, Reader.settle, Except.mapError]

end Survives

end Json

end StagedRollout
