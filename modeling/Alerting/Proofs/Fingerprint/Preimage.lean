import Alerting.Fingerprint

/-!
# What a fingerprint is made of

The bytes that are digested for a fingerprint tell what it is the fingerprint of. Every field has its length in front,
and lengths have one width, so the bytes are read back field by field (`framed_append_inj`, `preimage_inj`); the first
field names the family, and the fields after it are the rule and what tells the instance from the rule's others
(`Subject.fields_inj`). The labels of a series are digested by increasing key, however they are listed
(`Table.toList_ofList`).

So two instances have one fingerprint only if two different texts of bytes have digests that begin alike
(`preimage_determines_subject`).
-/

namespace Alerting.Fingerprint

/-! ## Framed fields -/

theorem length_lengthBytes (n : Nat) : (lengthBytes n).length = 8 := by simp [lengthBytes]

/-- Eight bytes tell a number below `2 ^ 64`. -/
theorem lengthBytes_inj {m n : Nat} (hm : m < Nat.pow 2 64) (hn : n < Nat.pow 2 64)
    (h : lengthBytes m = lengthBytes n) : m = n := by
  have hbyte : ∀ i < 8, m / 256 ^ i % 256 = n / 256 ^ i % 256 := by
    intro i hi
    have hget := congrArg (·[i]?) h
    simp only [lengthBytes, List.getElem?_map, List.getElem?_range hi, Option.map_some, Option.some.injEq] at hget
    have hnat := congrArg UInt8.toNat hget
    rwa [UInt8.toNat_ofNat', UInt8.toNat_ofNat'] at hnat
  have hmod : ∀ k ≤ 8, m % 256 ^ k = n % 256 ^ k := by
    intro k hk
    induction k with
    | zero => rw [Nat.pow_zero, Nat.mod_one, Nat.mod_one]
    | succ k ih => rw [Nat.mod_pow_succ, Nat.mod_pow_succ, ih (Nat.le_of_succ_le hk), hbyte k hk]
  have hall := hmod 8 (Nat.le_refl 8)
  have hpow : 256 ^ 8 = Nat.pow 2 64 := rfl
  rwa [hpow, Nat.mod_eq_of_lt hm, Nat.mod_eq_of_lt hn] at hall

/-- The bytes of an array, from one place on. -/
theorem toList_loop (bytes : ByteArray) (i : Nat) (read : List UInt8) :
    ByteArray.toList.loop bytes i read = read.reverse ++ bytes.data.toList.drop i := by
  fun_induction ByteArray.toList.loop bytes i read with
  | case1 i read h ih =>
    have hi : i < bytes.data.toList.length := h
    rw [ih, List.drop_eq_getElem_cons hi, List.reverse_cons, List.append_assoc]
    simp [ByteArray.get!, h]
  | case2 i read hi =>
    have hi : bytes.data.toList.length ≤ i := Nat.le_of_not_lt hi
    rw [List.drop_eq_nil_of_le hi, List.append_nil]

theorem toList_eq (bytes : ByteArray) : bytes.toList = bytes.data.toList := toList_loop bytes 0 []

/-- The length of a field can be written in eight bytes. -/
def Fits (field : String) : Prop := field.utf8ByteSize < Nat.pow 2 64

instance (field : String) : Decidable (Fits field) := inferInstanceAs (Decidable (_ < _))

/-- A framed field and what follows it are told apart. -/
theorem framed_append_inj {f g : String} (hf : Fits f) (hg : Fits g) {rest rest' : List UInt8}
    (h : framed f ++ rest = framed g ++ rest') : f = g ∧ rest = rest' := by
  have hsize : ∀ s : String, s.toUTF8.toList.length = s.utf8ByteSize := fun s => by
    rw [toList_eq, Array.length_toList]
    exact String.size_toByteArray
  simp only [framed, List.append_assoc] at h
  obtain ⟨hlength, hfield⟩ := List.append_inj h (by rw [length_lengthBytes, length_lengthBytes])
  rw [hsize, hsize] at hlength
  have heq := lengthBytes_inj hf hg hlength
  obtain ⟨hbytes, hrest⟩ := List.append_inj hfield (by rw [hsize, hsize, heq])
  rw [toList_eq, toList_eq] at hbytes
  exact ⟨String.toByteArray_inj.mp (ByteArray.ext (Array.toList_inj.mp hbytes)), hrest⟩

/-- **The bytes tell the fields.** -/
theorem preimage_inj {fs gs : List String} (hf : ∀ f ∈ fs, Fits f) (hg : ∀ g ∈ gs, Fits g)
    (h : preimage fs = preimage gs) : fs = gs := by
  have hne : ∀ (f : String) (rest : List UInt8), framed f ++ rest ≠ [] := fun f rest hnil => by
    have hlength := congrArg List.length hnil
    simp only [framed, List.length_append, length_lengthBytes, List.length_nil] at hlength
    omega
  induction fs generalizing gs with
  | nil =>
    cases gs with
    | nil => rfl
    | cons g gs => exact absurd h.symm (hne g _)
  | cons f fs ih =>
    cases gs with
    | nil => exact absurd h (hne f _)
    | cons g gs =>
      obtain ⟨rfl, hrest⟩ := framed_append_inj (hf f List.mem_cons_self) (hg g List.mem_cons_self) h
      rw [ih (fun x hx => hf x (List.mem_cons_of_mem f hx)) (fun x hx => hg x (List.mem_cons_of_mem f hx)) hrest]

/-! ## Alert instances -/

/-- What a fingerprint is of: an alert instance of a rule, by family. -/
inductive Subject
  /-- One series under one of the rule's severities. -/
  | series (rule severity : String) (labels : Table String)
  /-- The only instance of a rule. -/
  | sole (rule : String)
  | trace (rule service traceId : String)
  | endpoint (rule metric endpointId : String)
  /-- The warning events on an object for a reason. -/
  | group (rule ns reason object : String)
  deriving DecidableEq

namespace Subject

def fields : Subject → List String
  | series rule severity labels => metricFields rule severity labels
  | sole rule => ruleFields rule
  | trace rule service traceId => traceFields rule service traceId
  | endpoint rule metric endpointId => cloudFields rule metric endpointId
  | group rule ns reason object => kubeFields rule ns reason object

def fingerprint : Subject → String
  | series rule severity labels => ofMetric rule severity labels
  | sole rule => ofRule rule
  | trace rule service traceId => ofTrace rule service traceId
  | endpoint rule metric endpointId => ofCloud rule metric endpointId
  | group rule ns reason object => ofKube rule ns reason object

/-- The bytes that are digested. -/
def bytes (s : Subject) : List UInt8 := preimage s.fields

/-- The lengths of all fields can be written in eight bytes. -/
def Fits (s : Subject) : Prop := ∀ field ∈ s.fields, Fingerprint.Fits field

instance (s : Subject) : Decidable s.Fits := inferInstanceAs (Decidable (∀ field ∈ s.fields, _))

end Subject

/-- The first digits of the digest of some bytes. -/
def digits (bytes : List UInt8) : String := String.ofList (((Blake3.digest bytes).flatMap hexByte).take size)

theorem Subject.fingerprint_eq (s : Subject) : s.fingerprint = digits s.bytes := by cases s <;> rfl

/-- Labels are told from their fields. -/
theorem flatMap_label_inj {es es' : List (String × String)}
    (h : (es.flatMap fun e => [e.1, e.2]) = es'.flatMap fun e => [e.1, e.2]) : es = es' := by
  induction es generalizing es' with
  | nil =>
    cases es' with
    | nil => rfl
    | cons e' es' => cases h
  | cons e es ih =>
    cases es' with
    | nil => cases h
    | cons e' es' =>
      obtain ⟨hkey, hrest⟩ := List.cons.inj h
      obtain ⟨hvalue, hrest⟩ := List.cons.inj hrest
      rw [ih hrest, Prod.ext hkey hvalue]

/-- **The fields tell the instance.** -/
theorem Subject.fields_inj {s t : Subject} (h : s.fields = t.fields) : s = t := by
  cases s <;> cases t
  case series.series rule severity labels rule' severity' labels' =>
    simp only [fields, metricFields, List.cons.injEq, true_and] at h
    obtain ⟨rfl, rfl, hlabels⟩ := h
    rw [Table.eq_of_entries (flatMap_label_inj hlabels)]
  all_goals simp_all [fields, metricFields, ruleFields, traceFields, cloudFields, kubeFields]

theorem Subject.bytes_inj {s t : Subject} (hs : s.Fits) (ht : t.Fits) (h : s.bytes = t.bytes) : s = t :=
  fields_inj (preimage_inj hs ht h)

/-- **The bytes of a fingerprint tell its instance**: the family, the rule and all other fields, whatever characters
they have. So two instances have one fingerprint only if they are the same or the digests of two different texts of
bytes begin alike. The bytes of a series are those of its labels by increasing key, in whatever order these are
listed. -/
theorem preimage_determines_subject (s t : Subject) (hs : s.Fits) (ht : t.Fits) :
    (s.bytes = t.bytes ↔ s = t) ∧
      (s.fingerprint = t.fingerprint ↔ s = t ∨ s.bytes ≠ t.bytes ∧ digits s.bytes = digits t.bytes) ∧
      ∀ (rule severity : String) (labels labels' : List (String × String)), (labels.map (·.1)).Nodup →
        labels.Perm labels' → (Subject.series rule severity (.ofList labels)).bytes =
          preimage ("metrics" :: rule :: severity ::
            (labels'.mergeSort fun a b => a.1 ≤ b.1).flatMap fun e => [e.1, e.2]) := by
  have hbytes : s.bytes = t.bytes ↔ s = t := ⟨Subject.bytes_inj hs ht, congrArg Subject.bytes⟩
  refine ⟨hbytes, ?_, fun rule severity labels labels' hn hp => ?_⟩
  · rw [Subject.fingerprint_eq, Subject.fingerprint_eq]
    constructor
    · intro h
      exact (Decidable.em (s = t)).imp_right fun hne => ⟨(not_congr hbytes).mpr hne, h⟩
    · rintro (rfl | ⟨-, h⟩)
      · rfl
      · exact h
  · rw [Subject.bytes, Subject.fields, metricFields, Table.toList_ofList hn hp]

/-- Two groups of warning events whose fields are one text when they are joined have different bytes, and the bytes of a
series come with its labels by key. -/
theorem preimage_determines_subject_joined :
    let group := Subject.group "r1" "ab" "c" "pod"
    let group' := Subject.group "r1" "a" "bc" "pod"
    let labels := [("job", "node"), ("instance", "n1")]
    group.Fits ∧ group'.Fits ∧ group.bytes ≠ group'.bytes ∧
      (labels.map (·.1)).Nodup ∧ (Subject.series "r1" "P0" (.ofList labels)).bytes =
        preimage ["metrics", "r1", "P0", "instance", "n1", "job", "node"] := by
  intro group group' labels
  have hfits : group.Fits ∧ group'.Fits := by decide +kernel
  have hnodup : (labels.map (·.1)).Nodup := by decide
  obtain ⟨hbytes, -, hlabels⟩ := preimage_determines_subject group group' hfits.1 hfits.2
  refine ⟨hfits.1, hfits.2, ?_, hnodup, ?_⟩
  · exact (not_congr hbytes).mpr (by decide)
  · have hsorted : labels.reverse.mergeSort (fun a b => a.1 ≤ b.1) = labels.reverse :=
      List.mergeSort_of_pairwise (by decide)
    have hseries := hlabels "r1" "P0" labels labels.reverse hnodup (List.reverse_perm _).symm
    rwa [hsorted] at hseries

end Alerting.Fingerprint
