import Mathlib.Data.List.Forall2
import Mathlib.Data.List.Induction
import NetKit.Log.Sink
import NetKit.Proofs.Answers
import NetKit.Proofs.Log.Redaction

/-!
# What is forwarded of an event

An entry tells the values of its event, redacted. So events that differ in the values of secrets
only are forwarded alike. An event with a value that cannot be masked is not forwarded at all.
-/

namespace NetKit.Log

open Answer

variable {n t : String} {v : Value} {vs ws : List (String × Value)} {e e' : Event}
variable {es es' : List Event} {f : Forwarding}

/-! ## Values by name -/

namespace Entry

variable {fs gs : List (String × String)} {m w : String} {entry : Entry}

theorem mem_putField : (n, t) ∈ putField fs m w ↔ (n = m ∧ t = w) ∨ (n ≠ m ∧ (n, t) ∈ fs) := by
  simp [putField, and_comm, or_comm]

theorem keys_putField : (putField fs m w).map Prod.fst = (fs.map Prod.fst).filter (· != m) ++ [m] := by
  simp [putField, List.filter_map, Function.comp_def]

theorem nodup_putField (h : (fs.map Prod.fst).Nodup) : ((putField fs m w).map Prod.fst).Nodup := by
  rw [keys_putField, List.nodup_append]
  refine ⟨h.filter _, by simp, fun a ha b hb => ?_⟩
  rw [List.mem_singleton.mp hb]
  exact bne_iff_ne.mp (List.mem_filter.mp ha).2

theorem putField_of_fresh (h : m ∉ fs.map Prod.fst) : putField fs m w = fs ++ [(m, w)] := by
  rw [putField, List.filter_eq_self.mpr]
  intro g hg
  exact bne_iff_ne.mpr fun hgm => h (hgm ▸ List.mem_map_of_mem hg)

theorem withFields_of_fresh (h : ((entry.fields ++ gs).map Prod.fst).Nodup) :
    entry.withFields gs = { entry with fields := entry.fields ++ gs } := by
  induction gs generalizing entry with
  | nil => simp [withFields]
  | cons g gs ih =>
    have hfresh : g.1 ∉ entry.fields.map Prod.fst := by
      rw [List.map_append, List.nodup_append] at h
      exact fun hg => h.2.2 g.1 hg g.1 (by simp) rfl
    have hput : entry.withField g.1 g.2 = { entry with fields := entry.fields ++ [g] } := by
      rw [withField, putField_of_fresh hfresh]
    rw [List.append_cons] at h
    rw [withFields, List.foldl_cons, hput]
    exact (ih h).trans (by simp)

end Entry

/-- What was recorded last under a name. -/
def IsLast (vs : List (String × Value)) (n : String) (v : Value) : Prop :=
  ∃ before after, vs = before ++ (n, v) :: after ∧ ∀ p ∈ after, p.1 ≠ n

theorem isLast_concat {p : String × Value} :
    IsLast (vs ++ [p]) n v ↔ p = (n, v) ∨ (p.1 ≠ n ∧ IsLast vs n v) := by
  constructor
  · rintro ⟨before, after, h, hafter⟩
    obtain rfl | ⟨after, q, rfl⟩ := after.eq_nil_or_concat'
    · obtain ⟨-, hp⟩ := List.append_inj' h rfl
      exact .inl (List.singleton_inj.mp hp)
    · rw [← List.cons_append, ← List.append_assoc] at h
      obtain ⟨rfl, hp⟩ := List.append_inj' h rfl
      obtain rfl := List.singleton_inj.mp hp
      exact .inr ⟨hafter p (by simp), before, after, rfl, fun q hq => hafter q (by simp [hq])⟩
  · rintro (rfl | ⟨hp, before, after, rfl, hafter⟩)
    · exact ⟨vs, [], rfl, by simp⟩
    · refine ⟨before, after ++ [p], by simp, fun q hq => ?_⟩
      rcases List.mem_append.mp hq with hq | hq
      · exact hafter q hq
      · rwa [List.mem_singleton.mp hq]

theorem fieldsOf_concat (vs : List (String × Value)) (p : String × Value) :
    fieldsOf (vs ++ [p]) = Entry.putField (fieldsOf vs) p.1 p.2.shown := by
  simp [fieldsOf]

theorem mem_fieldsOf : (n, t) ∈ fieldsOf vs ↔ ∃ v, IsLast vs n v ∧ v.shown = t := by
  -- A value takes the place of those before it, so values are taken off the end.
  induction vs using List.reverseRecOn with
  | nil => simp [fieldsOf, IsLast]
  | append_singleton vs p ih =>
    obtain ⟨m, w⟩ := p
    rw [fieldsOf_concat, Entry.mem_putField, ih]
    constructor
    · rintro (⟨rfl, rfl⟩ | ⟨hn, v, hv, rfl⟩)
      · exact ⟨w, isLast_concat.mpr (.inl rfl), rfl⟩
      · exact ⟨v, isLast_concat.mpr (.inr ⟨hn.symm, hv⟩), rfl⟩
    · rintro ⟨v, hv, rfl⟩
      rcases isLast_concat.mp hv with h | ⟨hn, hv⟩
      · cases h
        exact .inl ⟨rfl, rfl⟩
      · exact .inr ⟨hn.symm, v, hv, rfl⟩

theorem nodup_fieldsOf (vs : List (String × Value)) : ((fieldsOf vs).map Prod.fst).Nodup := by
  induction vs using List.reverseRecOn with
  | nil => simp [fieldsOf]
  | append_singleton vs p ih =>
    rw [fieldsOf_concat]
    exact Entry.nodup_putField ih

theorem mem_keys_fieldsOf : n ∈ (fieldsOf vs).map Prod.fst ↔ n ∈ vs.map Prod.fst := by
  induction vs using List.reverseRecOn with
  | nil => simp [fieldsOf]
  | append_singleton vs p ih =>
    rw [fieldsOf_concat, Entry.keys_putField, List.mem_append, List.mem_filter, ih]
    by_cases hn : n = p.1 <;> simp [hn]

/-! ## Secrets do not show -/

/-- The same name, and the same value unless the name is one of a secret. -/
def SameButSecret {α : Type} (p q : String × α) : Prop := p.1 = q.1 ∧ (p.2 = q.2 ∨ IsSecret p.1)

/-- The events differ in the values of secrets at most. -/
structure Event.SameButSecrets (e e' : Event) : Prop where
  level : e.level = e'.level
  target : e.target = e'.target
  message : e.message = e'.message
  span : e.span = e'.span
  data : List.Forall₂ SameButSecret e.data e'.data

theorem putField_sameButSecret {fs gs : List (String × String)} {p q : String × Value}
    (h : List.Forall₂ SameButSecret fs gs) (hpq : SameButSecret p q) :
    List.Forall₂ SameButSecret (Entry.putField fs p.1 p.2.shown)
      (Entry.putField gs q.1 q.2.shown) := by
  obtain ⟨hname, hvalue⟩ := hpq
  rw [Entry.putField, Entry.putField, ← hname]
  refine List.rel_append (List.rel_filter (fun a b hab => ?_) h) (.cons ⟨rfl, ?_⟩ .nil)
  · simp [hab.1]
  · exact hvalue.imp_left (congrArg Value.shown)

theorem fieldsOf_sameButSecret (h : List.Forall₂ SameButSecret vs ws) :
    List.Forall₂ SameButSecret (fieldsOf vs) (fieldsOf ws) :=
  List.rel_foldl (R := SameButSecret) (fun _ _ hfs _ _ hpq => putField_sameButSecret hfs hpq) .nil h

namespace Forwarding

theorem field?_of_redacts (hf : f.redacts = true) (p : String × String) :
    f.field? p = (redact? p.1 p.2).map fun t => (p.1, t) := if_pos hf

theorem field?_eq_of_sameButSecret (hf : f.redacts = true) {p q : String × String}
    (h : SameButSecret p q) : f.field? p = f.field? q := by
  obtain ⟨hname, hvalue⟩ := h
  rw [field?_of_redacts hf, field?_of_redacts hf, ← hname]
  rcases hvalue with hvalue | hsecret
  · rw [hvalue]
  · rw [redact?_of_secret hsecret, redact?_of_secret hsecret]

theorem entryOf?_eq_of_sameButSecrets (hf : f.redacts = true) (h : e.SameButSecrets e') :
    f.entryOf? e = f.entryOf? e' := by
  have hfields : (fieldsOf e.data).mapM f.field? = (fieldsOf e'.data).mapM f.field? :=
    mapM_congr ((fieldsOf_sameButSecret h.data).imp fun _ _ h => field?_eq_of_sameButSecret hf h)
  rw [entryOf?, entryOf?, hfields, h.level, h.target, h.message, h.span]

theorem forward?_eq_of_sameButSecrets (hf : f.redacts = true)
    (h : List.Forall₂ Event.SameButSecrets es es') : f.forward? es = f.forward? es' := by
  rw [forward?, forward?]
  cases f.sink with
  | none => rfl
  | some sink =>
    have hshown : List.Forall₂ Event.SameButSecrets
        (es.filter fun e => sink.minLevel ≤ e.level)
        (es'.filter fun e => sink.minLevel ≤ e.level) :=
      List.rel_filter (fun e e' he => by simp [he.level]) h
    exact mapM_congr (hshown.imp fun _ _ he => entryOf?_eq_of_sameButSecrets hf he)

end Forwarding

/-! ## What is told -/

/-- The values of an event are told redacted: of each name the last. -/
structure Entry.Tells (entry : Entry) (now : Instant) (e : Event) : Prop where
  level : entry.level = e.level
  timestamp : entry.timestamp = now
  target : entry.target = e.target
  message : entry.message = e.message
  span : entry.span = e.span
  nodup : (entry.fields.map Prod.fst).Nodup
  names : ∀ n, n ∈ entry.fields.map Prod.fst ↔ n ∈ e.data.map Prod.fst
  values : ∀ n t, (n, t) ∈ entry.fields ↔ ∃ v, IsLast e.data n v ∧ redact? n v.shown = some t

/-- There is a value that cannot be masked. -/
def Event.CannotBeTold (e : Event) : Prop :=
  ∃ n v, IsLast e.data n v ∧ ¬ IsSecret n ∧ CannotBeMasked v.shown

namespace Forwarding

theorem field?_eq_some_iff (hf : f.redacts = true) {p q : String × String} :
    f.field? p = some q ↔ p.1 = q.1 ∧ redact? p.1 p.2 = some q.2 := by
  rw [field?_of_redacts hf, Option.map_eq_some_iff]
  constructor
  · rintro ⟨t, ht, rfl⟩
    exact ⟨rfl, ht⟩
  · rintro ⟨hname, ht⟩
    exact ⟨q.2, ht, Prod.ext hname rfl⟩

theorem entryOf?_eq_map (f : Forwarding) (e : Event) :
    f.entryOf? e = ((fieldsOf e.data).mapM f.field?).map fun gs => Entry.withFields
      { level := e.level, timestamp := f.now, target := e.target, message := e.message,
        span := e.span } gs :=
  Option.map_eq_bind.symm

theorem tells_of_entryOf? (hf : f.redacts = true) {entry : Entry} (h : f.entryOf? e = some entry) :
    entry.Tells f.now e := by
  obtain ⟨gs, hgs, rfl⟩ := Option.map_eq_some_iff.mp (f.entryOf?_eq_map e ▸ h)
  have hkeys : gs.map Prod.fst = (fieldsOf e.data).map Prod.fst :=
    (map_eq_of_mapM (fun p q hq => ((field?_eq_some_iff hf).mp hq).1) hgs).symm
  have hnodup : (gs.map Prod.fst).Nodup := hkeys ▸ nodup_fieldsOf e.data
  -- No name comes twice, so that no field takes the place of another.
  rw [Entry.withFields_of_fresh (by simpa using hnodup)]
  refine ⟨rfl, rfl, rfl, rfl, rfl, by simpa using hnodup, fun n => ?_, fun n t => ?_⟩
  · rw [List.nil_append, hkeys, mem_keys_fieldsOf]
  · rw [List.nil_append, mem_iff_of_mapM hgs]
    constructor
    · rintro ⟨⟨m, w⟩, hmem, hq⟩
      obtain ⟨rfl, ht⟩ := (field?_eq_some_iff hf).mp hq
      obtain ⟨v, hv, rfl⟩ := mem_fieldsOf.mp hmem
      exact ⟨v, hv, ht⟩
    · rintro ⟨v, hv, ht⟩
      exact ⟨(n, v.shown), mem_fieldsOf.mpr ⟨v, hv, rfl⟩, (field?_eq_some_iff hf).mpr ⟨rfl, ht⟩⟩

theorem entryOf?_eq_none_iff (hf : f.redacts = true) : f.entryOf? e = none ↔ e.CannotBeTold := by
  rw [entryOf?_eq_map, Option.map_eq_none_iff, mapM_eq_none_iff, Event.CannotBeTold]
  constructor
  · rintro ⟨⟨n, w⟩, hmem, hp⟩
    obtain ⟨v, hv, rfl⟩ := mem_fieldsOf.mp hmem
    rw [field?_of_redacts hf, Option.map_eq_none_iff, redact?_eq_none_iff] at hp
    exact ⟨n, v, hv, hp⟩
  · rintro ⟨n, v, hv, hp⟩
    refine ⟨(n, v.shown), mem_fieldsOf.mpr ⟨v, hv, rfl⟩, ?_⟩
    rw [field?_of_redacts hf, Option.map_eq_none_iff, redact?_eq_none_iff]
    exact hp

variable {sink : Sink}

theorem forward?_of_sink (hsink : f.sink = some sink) (es : List Event) :
    f.forward? es = (es.filter fun e => sink.minLevel ≤ e.level).mapM f.entryOf? := by
  rw [forward?, hsink]

/-- With redaction, what is forwarded does not depend on secrets. Of the events from the sink's
level on, and of no others, an entry each tells the values, redacted, unless one of the events has a
value that cannot be masked: then there is no answer. -/
theorem secrets_do_not_show (hf : f.redacts = true) :
    (∀ es es' : List Event, List.Forall₂ Event.SameButSecrets es es' →
      f.forward? es = f.forward? es') ∧
    ∀ sink, f.sink = some sink → ∀ es : List Event,
      (∀ entries, f.forward? es = some entries →
        List.Forall₂ (fun e entry => Entry.Tells entry f.now e)
          (es.filter fun e => sink.minLevel ≤ e.level) entries) ∧
      (f.forward? es = none ↔ ∃ e ∈ es, sink.minLevel ≤ e.level ∧ e.CannotBeTold) := by
  refine ⟨fun es es' => forward?_eq_of_sameButSecrets hf, fun sink hsink es => ?_⟩
  rw [forward?_of_sink hsink]
  constructor
  · intro entries h
    exact (forall₂_of_mapM h).imp fun e entry he => tells_of_entryOf? hf he
  · simp [mapM_eq_none_iff, entryOf?_eq_none_iff hf, and_assoc]

def signIn (email password : String) : Event where
  target := "web"
  name := "event"
  values := [("message", .text "signed in"), ("email", .text email), ("password", .text password)]

theorem secrets_do_not_show_of_passwords :
    let f : Forwarding := { now := ⟨0, 0⟩ }
    let told : Entry :=
      { level := .info, timestamp := ⟨0, 0⟩, target := "web", message := "signed in",
        fields := [("email", "a***@[REDACTED]"), ("password", "[REDACTED]")] }
    f.redacts = true ∧ f.sink = some {} ∧
      f.forward? [signIn "a@x.y" "one"] = f.forward? [signIn "a@x.y" "two"] ∧
      f.forward? [signIn "a@x.y" "one"] = some [told] ∧
      List.Forall₂ (fun e entry => Entry.Tells entry f.now e) [signIn "a@x.y" "one"] [told] := by
  intro f told
  have hpassword : IsSecret "password" := isSensitive_iff.mp (by decide)
  have hsame : (signIn "a@x.y" "one").SameButSecrets (signIn "a@x.y" "two") :=
    ⟨rfl, rfl, rfl, rfl, .cons ⟨rfl, .inl rfl⟩ (.cons ⟨rfl, .inr hpassword⟩ .nil)⟩
  have htold : f.forward? [signIn "a@x.y" "one"] = some [told] := by decide
  obtain ⟨hblind, htells⟩ := secrets_do_not_show (f := f) rfl
  exact ⟨rfl, rfl, hblind _ _ (.cons hsame .nil), htold, (htells {} rfl _).1 _ htold⟩

/-- An address whose first letter is beyond ASCII cannot be masked, and its event is lost. -/
theorem accented_address_is_lost :
    let f : Forwarding := { now := ⟨0, 0⟩ }
    let e := signIn "é@x.y" ""
    f.redacts = true ∧ f.sink = some {} ∧ ({} : Sink).minLevel ≤ e.level ∧
      ¬ ∃ entries, f.forward? [e] = some entries := by
  intro f e
  have hlost : f.forward? [e] = none := by decide
  refine ⟨rfl, rfl, by decide, ?_⟩
  rintro ⟨entries, h⟩
  rw [hlost] at h
  cases h

end Forwarding

end NetKit.Log
