import CommentProse.Proofs.ByteCuts
import CommentProse.Registry
import Mathlib.Data.String.Basic

/-!
What a registry answers after any sequence of calls.

* `Text.bytes_lt_bytes`: texts are in the order of their bytes;
* `Registry.Call`, `Registry.run`: the calls of a registry, and a run of them with its answers;
* `Registry.registrations`, `Registry.LastRegistered`: what a run has registered, and which
  factory came last for an extension;
* `Registry.Holds`: a registry holds the last factory of each extension, and its extensions ascend;
  `Holds.step` says that one call keeps this, and `Holds.run` that a run does;
* `Registry.answers_after_run`: hence the answers after any run from the empty registry.
-/

namespace CommentProse

/-! ### The order of bytes -/

namespace Text

/-- The bytes of a smaller character are smaller, whatever comes behind them. -/
lemma utf8EncodeChar_append_lt {c d : Char} (h : c < d) (as bs : List UInt8) :
    String.utf8EncodeChar c ++ as < String.utf8EncodeChar d ++ bs := by
  have hlt : c.val.toNat < d.val.toNat := h
  have hmax : d.val.toNat < 0x110000 := by
    rcases d.valid with hlow | ⟨-, hhigh⟩
    · exact Nat.lt_trans hlow (by omega)
    · exact hhigh
  -- the quotients as one chain, so that the digits of both numbers can be compared one by one
  have htwo : ∀ v, v / 4096 = v / 64 / 64 := fun v => by omega
  have hthree : ∀ v, v / 262144 = v / 64 / 64 / 64 := fun v => by omega
  unfold String.utf8EncodeChar
  dsimp only
  split_ifs <;>
    simp only [List.cons_append, List.nil_append, List.cons_lt_cons_iff, UInt8.lt_iff_toNat_lt,
      ← UInt8.toNat_inj, UInt8.toNat_ofNat', htwo, hthree] <;>
    omega

/-- Texts are in the order of their bytes. -/
lemma bytes_lt_bytes {cs ds : List Char} (h : cs < ds) : bytes cs < bytes ds := by
  induction h with
  | @nil d ds =>
      obtain ⟨first, more, hd⟩ :=
        List.exists_cons_of_ne_nil (String.utf8EncodeChar_ne_nil : String.utf8EncodeChar d ≠ [])
      rw [bytes_nil, bytes_cons, hd]
      exact List.nil_lt_cons _ _
  | rel hlt =>
      rw [bytes_cons, bytes_cons]
      exact utf8EncodeChar_append_lt hlt _ _
  | cons _ ih =>
      rw [bytes_cons, bytes_cons]
      exact List.append_left_lt ih

end Text

namespace Registry

/-! ### Runs -/

/-- The calls of a registry. -/
inductive Call where
  | register (ext : String) (factory : Factory)
  | registerAll
  | lookup (ext : String)
  | extensions

/-- What a call answers. -/
inductive Answer where
  | done
  | processor (outcome : Except SourceError (Option Processor))
  | extensions (exts : List String)

/-- One call: the registry after it, and its answer. -/
def step (r : Registry) : Call → Registry × Answer
  | .register ext factory => (r.register ext factory, .done)
  | .registerAll => (r.registerAll, .done)
  | .lookup ext => (r, .processor (r.lookup ext))
  | .extensions => (r, .extensions r.extensions)

/-- Calls one after the other: the registry after them, and their answers. -/
def run (r : Registry) : List Call → Registry × List Answer
  | [] => (r, [])
  | call :: calls =>
    let after := (r.step call).1.run calls
    (after.1, (r.step call).2 :: after.2)

/-- What a call registers. -/
def Call.registrations : Call → List (String × Factory)
  | .register ext factory => [(ext, factory)]
  | .registerAll => [(".kt", .ok Processor.kotlin), (".kts", .ok Processor.kotlin)]
  | .lookup _ => []
  | .extensions => []

/-- What calls register, the earliest first. -/
def registrations (calls : List Call) : List (String × Factory) :=
  calls.flatMap Call.registrations

/-- The factory that calls register last for an extension. -/
def LastRegistered (calls : List Call) (ext : String) (factory : Factory) : Prop :=
  ∃ before behind, registrations calls = before ++ (ext, factory) :: behind
    ∧ ∀ r ∈ behind, r.1 ≠ ext

lemma run_append (r : Registry) (before behind : List Call) :
    r.run (before ++ behind) =
      (((r.run before).1.run behind).1, (r.run before).2 ++ ((r.run before).1.run behind).2) := by
  induction before generalizing r with
  | nil => rfl
  | cons call before ih => rw [List.cons_append, run, ih]; rfl

lemma length_run (r : Registry) (calls : List Call) : (r.run calls).2.length = calls.length := by
  induction calls generalizing r with
  | nil => rfl
  | cons call calls ih => rw [run, List.length_cons, List.length_cons, ih]

/-! ### What a registry holds -/

/-- The extensions ascend, and each has the factory that was registered last for it. -/
structure Holds (r : Registry) (registered : List (String × Factory)) : Prop where
  ascending : r.entries.Pairwise (·.1 < ·.1)
  factory : ∀ ext, r.factory? ext = registered.reverse.lookup ext

lemma holds_empty : Holds empty [] := ⟨List.Pairwise.nil, fun _ => rfl⟩

lemma mem_insert {ext : String} {factory : Factory} {es : List (String × Factory)}
    {e : String × Factory} (h : e ∈ insert ext factory es) : e = (ext, factory) ∨ e ∈ es := by
  induction es with
  | nil => exact Or.inl (List.mem_singleton.mp h)
  | cons d es ih =>
      rw [insert] at h
      split_ifs at h
      · exact List.mem_cons.mp h
      · exact (List.mem_cons.mp h).imp_right (List.mem_cons_of_mem d)
      · rcases List.mem_cons.mp h with rfl | h
        · exact Or.inr List.mem_cons_self
        · exact (ih h).imp_right (List.mem_cons_of_mem d)

lemma pairwise_insert (ext : String) (factory : Factory) {es : List (String × Factory)}
    (h : es.Pairwise (·.1 < ·.1)) : (insert ext factory es).Pairwise (·.1 < ·.1) := by
  induction h with
  | nil => exact List.pairwise_singleton _ _
  | @cons d es hd hes ih =>
      rw [insert]
      split_ifs with hlt heq
      · refine List.Pairwise.cons (fun e he => ?_) (List.Pairwise.cons hd hes)
        rcases List.mem_cons.mp he with rfl | he
        · exact hlt
        · exact lt_trans hlt (hd e he)
      · refine List.Pairwise.cons (fun e he => ?_) hes
        exact heq ▸ hd e he
      · refine List.Pairwise.cons (fun e he => ?_) ih
        rcases mem_insert he with rfl | he
        · exact lt_of_le_of_ne (not_lt.mp hlt) (Ne.symm heq)
        · exact hd e he

lemma lookup_cons_eq_ite (e : String × Factory) (es : List (String × Factory)) (ext : String) :
    (e :: es).lookup ext = if ext = e.1 then some e.2 else es.lookup ext := by
  rw [List.lookup_cons]
  split_ifs with h
  · rw [beq_iff_eq.mpr h]
  · rw [beq_false_of_ne h]

/-- An inserted factory hides the others of its extension, and no more. -/
lemma lookup_insert (ext : String) (factory : Factory) (es : List (String × Factory))
    (ext' : String) :
    (insert ext factory es).lookup ext' = ((ext, factory) :: es).lookup ext' := by
  induction es with
  | nil => rfl
  | cons d es ih =>
      rw [insert]
      split_ifs with hlt heq
      · rfl
      · rw [lookup_cons_eq_ite, lookup_cons_eq_ite, lookup_cons_eq_ite, ← heq]
        split_ifs <;> rfl
      · rw [lookup_cons_eq_ite, ih, lookup_cons_eq_ite, lookup_cons_eq_ite, lookup_cons_eq_ite]
        -- the two entries are for different extensions, so that they may change places
        split_ifs with hd hext
        · exact absurd (hext.symm.trans hd) heq
        all_goals rfl

/-- Registering a factory puts it behind all others. -/
lemma Holds.register {r : Registry} {registered : List (String × Factory)}
    (h : Holds r registered) (ext : String) (factory : Factory) :
    Holds (r.register ext factory) (registered ++ [(ext, factory)]) where
  ascending := pairwise_insert ext factory h.ascending
  factory := by
    intro ext'
    calc (insert ext factory r.entries).lookup ext'
        = ((ext, factory) :: r.entries).lookup ext' := lookup_insert _ _ _ _
      _ = if ext' = ext then some factory else r.factory? ext' := lookup_cons_eq_ite _ _ _
      _ = if ext' = ext then some factory else registered.reverse.lookup ext' := by rw [h.factory]
      _ = ((registered ++ [(ext, factory)]).reverse).lookup ext' := by
          rw [List.reverse_concat, lookup_cons_eq_ite]

/-- A call adds what it registers to what the registry holds. -/
lemma Holds.step {r : Registry} {registered : List (String × Factory)} (h : Holds r registered)
    (call : Call) : Holds (r.step call).1 (registered ++ call.registrations) := by
  cases call with
  | register ext factory => exact h.register ext factory
  | registerAll =>
      have hboth := (h.register ".kt" (.ok Processor.kotlin)).register ".kts" (.ok Processor.kotlin)
      rw [List.append_assoc] at hboth
      exact hboth
  | lookup ext => rwa [Call.registrations, List.append_nil]
  | extensions => rwa [Call.registrations, List.append_nil]

/-- So does a run, call by call. -/
lemma Holds.run {r : Registry} {registered : List (String × Factory)} (h : Holds r registered)
    (calls : List Call) : Holds (r.run calls).1 (registered ++ registrations calls) := by
  induction calls generalizing r registered with
  | nil => rwa [registrations, List.flatMap_nil, List.append_nil]
  | cons call calls ih =>
      have hrest := ih (h.step call)
      rw [List.append_assoc] at hrest
      exact hrest

/-! ### Answers -/

variable {r : Registry} {calls : List Call}

/-- The extensions of a registry are in the order of their bytes. -/
lemma Holds.pairwise_extensions {registered : List (String × Factory)} (h : Holds r registered) :
    r.extensions.Pairwise fun a b => Text.bytes a.toList < Text.bytes b.toList := by
  refine List.pairwise_map.mpr (h.ascending.imp fun hlt => ?_)
  exact Text.bytes_lt_bytes (String.lt_iff_toList_lt.mp hlt)

lemma lookup_eq_none_iff (es : List (String × Factory)) (ext : String) :
    es.lookup ext = none ↔ ∀ f, (ext, f) ∉ es := by
  rw [List.lookup_eq_none_iff]
  constructor
  · intro h f hf
    simpa using h _ hf
  · intro h e he
    simp only [bne_iff_ne]
    rintro rfl
    exact h e.2 he

/-- The extensions of a registry are those with a factory. -/
lemma mem_extensions (r : Registry) (ext : String) :
    ext ∈ r.extensions ↔ r.factory? ext ≠ none := by
  rw [factory?, Ne, lookup_eq_none_iff, extensions, List.mem_map]
  push Not
  constructor
  · rintro ⟨e, he, rfl⟩
    exact ⟨e.2, he⟩
  · rintro ⟨f, hf⟩
    exact ⟨(ext, f), hf, rfl⟩

/-- A registry has no factory for an extension exactly if none was registered. -/
lemma Holds.factory?_eq_none (h : Holds r (registrations calls)) (ext : String) :
    r.factory? ext = none ↔ ∀ f, (ext, f) ∉ registrations calls := by
  rw [h.factory, lookup_eq_none_iff]
  simp only [List.mem_reverse]

/-- The factory of an extension is the one that was registered last. -/
lemma Holds.lastRegistered (h : Holds r (registrations calls)) {ext : String} {factory : Factory}
    (hf : r.factory? ext = some factory) : LastRegistered calls ext factory := by
  rw [h.factory, List.lookup_eq_some_iff] at hf
  obtain ⟨behind, before, hsplit, hne⟩ := hf
  refine ⟨before.reverse, behind.reverse, ?_, fun r hr => ?_⟩
  · rw [← List.reverse_reverse (registrations calls), hsplit]
    simp
  · have hext := hne r (List.mem_reverse.mp hr)
    rw [bne_iff_ne] at hext
    exact Ne.symm hext

lemma lookup_of_none {ext : String} (h : r.factory? ext = none) : r.lookup ext = .ok none := by
  rw [lookup, h]

lemma lookup_of_some {ext : String} {factory : Factory} (h : r.factory? ext = some factory) :
    r.lookup ext = factory.map some := by
  rw [lookup, h]

/-- What a factory makes is a processor or an error, never nothing. -/
lemma map_some_ne_ok_none (factory : Factory) : factory.map some ≠ .ok none := by
  cases factory with
  | error e => exact fun h => by cases h
  | ok p => exact fun h => by cases h

/-- A lookup changes no answer to later calls. -/
lemma eraseIdx_run_lookup (r : Registry) (calls later : List Call) (ext : String) :
    (r.run (calls ++ .lookup ext :: later)).2.eraseIdx calls.length =
      (r.run (calls ++ later)).2 := by
  rw [run_append, run_append, List.eraseIdx_append_of_length_le (length_run r calls).le,
    length_run, Nat.sub_self]
  rfl

/-- **The last registration counts**: after any calls on the empty registry, its extensions ascend
by their bytes and are exactly those registered; a lookup finds no processor exactly if its
extension was never registered, and otherwise gives what the factory registered last for it makes,
be it a processor or an error; and a lookup changes no answer to later calls. -/
theorem answers_after_run (calls : List Call) :
    ((empty.run calls).1.extensions.Pairwise fun a b => Text.bytes a.toList < Text.bytes b.toList)
    ∧ (∀ ext, ext ∈ (empty.run calls).1.extensions ↔ ∃ f, (ext, f) ∈ registrations calls)
    ∧ (∀ ext, (empty.run calls).1.lookup ext = .ok none ↔ ∀ f, (ext, f) ∉ registrations calls)
    ∧ (∀ ext, (∃ f, (ext, f) ∈ registrations calls) →
        ∃ f, LastRegistered calls ext f ∧ (empty.run calls).1.lookup ext = f.map some)
    ∧ ∀ ext later, (empty.run (calls ++ .lookup ext :: later)).2.eraseIdx calls.length =
        (empty.run (calls ++ later)).2 := by
  have h : Holds (empty.run calls).1 (registrations calls) := holds_empty.run calls
  have hnone := h.factory?_eq_none
  refine ⟨h.pairwise_extensions, fun ext => ?_, fun ext => ?_, fun ext hext => ?_,
    fun ext later => eraseIdx_run_lookup empty calls later ext⟩
  · rw [mem_extensions, Ne, hnone]
    push Not
    rfl
  · rw [← hnone]
    refine ⟨fun hlookup => ?_, lookup_of_none⟩
    by_contra hsome
    obtain ⟨f, hf⟩ := Option.ne_none_iff_exists'.mp hsome
    exact map_some_ne_ok_none f ((lookup_of_some hf).symm.trans hlookup)
  · have hsome : (empty.run calls).1.factory? ext ≠ none := by
      rw [Ne, hnone]
      push Not
      exact hext
    obtain ⟨f, hf⟩ := Option.ne_none_iff_exists'.mp hsome
    exact ⟨f, h.lastRegistered hf, lookup_of_some hf⟩

end Registry

end CommentProse
