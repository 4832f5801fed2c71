import Mathlib.Tactic

/-!
# Readers of framed streams

A reader looks at the front of a buffer: there is no whole item yet, there is
one of so many bytes, or the bytes are broken and nothing says where the next
item starts. `drain` is the loop around it. It handles every whole item, keeps
what is left for the next chunk and drops the buffer where it is broken.

A reader is steady when more bytes behind what it has judged do not change its
judgement. Then the items of a stream are the same however it is cut into
chunks, as far as the first break.
-/

namespace Kit

/-! ### Four-byte words -/

/-- A 32-bit word, the highest byte first. -/
def be32 (n : ℕ) : List UInt8 :=
  [UInt8.ofNat (n / 2 ^ 24), UInt8.ofNat (n / 2 ^ 16), UInt8.ofNat (n / 2 ^ 8), UInt8.ofNat n]

def readBe32 : List UInt8 → ℕ
  | a :: b :: c :: d :: _ =>
    a.toNat * 2 ^ 24 + b.toNat * 2 ^ 16 + c.toNat * 2 ^ 8 + d.toNat
  | _ => 0

theorem readBe32_be32_append {n : ℕ} (h : n < 2 ^ 32) (rest : List UInt8) :
    readBe32 (be32 n ++ rest) = n := by
  simp only [be32, List.cons_append, readBe32, UInt8.toNat_ofNat']
  omega

theorem readBe32_append {b : List UInt8} (h : 4 ≤ b.length) (more : List UInt8) :
    readBe32 (b ++ more) = readBe32 b := by
  match b, h with
  | _ :: _ :: _ :: _ :: _, _ => rfl

/-! ### The reader and its loop -/

inductive Front (ι ε : Type*) where
  | incomplete
  | item (size : ℕ) (value : ι)
  | broken (reason : ε)

inductive Entry (ι ε : Type*) where
  | item (value : ι)
  | broken (reason : ε)

def Entry.isBroken {ι ε : Type*} : Entry ι ε → Bool
  | .item _ => false
  | .broken _ => true

variable {β ι ε σ : Type*}

structure Steady (next : List β → Front ι ε) : Prop where
  empty : next [] = .incomplete
  item : ∀ {b n x}, next b = .item n x →
    0 < n ∧ n ≤ b.length ∧ ∀ more, next (b ++ more) = .item n x
  broken : ∀ {b e}, next b = .broken e → ∀ more, next (b ++ more) = .broken e

/-- One invocation of the loop; `none` says that it has not ended within `fuel`
turns. -/
def drain (next : List β → Front ι ε) (handle : σ → Entry ι ε → σ) :
    ℕ → σ → List β → Option (σ × List β)
  | 0, _, _ => none
  | fuel + 1, s, b =>
    match next b with
    | .incomplete => some (s, b)
    | .item n x => drain next handle fuel (handle s (.item x)) (b.drop n)
    | .broken e => some (handle s (.broken e), [])

/-- What the loop finds in a buffer, and what it leaves. -/
inductive Reads (next : List β → Front ι ε) : List β → List (Entry ι ε) → List β → Prop where
  | incomplete {b} : next b = .incomplete → Reads next b [] b
  | item {b n x es r} : next b = .item n x → Reads next (b.drop n) es r →
      Reads next b (.item x :: es) r
  | broken {b e} : next b = .broken e → Reads next b [.broken e] []

/-- The same over successive chunks. -/
inductive Feeds (next : List β → Front ι ε) :
    List β → List (List β) → List (Entry ι ε) → List β → Prop where
  | nil {b} : Feeds next b [] [] b
  | cons {b c cs es b' fs r} : Reads next (b ++ c) es b' → Feeds next b' cs fs r →
      Feeds next b (c :: cs) (es ++ fs) r

variable {next : List β → Front ι ε} {handle : σ → Entry ι ε → σ}

theorem drain_reads {fuel : ℕ} {s t : σ} {b r : List β}
    (h : drain next handle fuel s b = some (t, r)) :
    ∃ es, Reads next b es r ∧ t = es.foldl handle s := by
  induction fuel generalizing s b with
  | zero => cases h
  | succ fuel ih =>
    simp only [drain] at h
    split at h
    · rename_i hnext
      cases h
      exact ⟨[], .incomplete hnext, rfl⟩
    · rename_i n x hnext
      obtain ⟨es, hreads, ht⟩ := ih h
      exact ⟨.item x :: es, .item hnext hreads, ht⟩
    · rename_i e hnext
      cases h
      exact ⟨[.broken e], .broken hnext, rfl⟩

/-- Each turn takes bytes away, so the loop ends within one turn more than there
are bytes, and the fuel beyond that does not matter. -/
theorem Steady.drain_total (hnext : Steady next) (handle : σ → Entry ι ε → σ) (s : σ)
    (b : List β) :
    ∃ r, ∀ fuel, b.length < fuel → drain next handle fuel s b = some r := by
  induction hlen : b.length using Nat.strong_induction_on generalizing s b with
  | _ n ih =>
    subst hlen
    cases hb : next b with
    | incomplete =>
      refine ⟨(s, b), fun fuel hfuel => ?_⟩
      obtain ⟨fuel, rfl⟩ : ∃ k, fuel = k + 1 := ⟨fuel - 1, by omega⟩
      simp only [drain, hb]
    | item size x =>
      have hsize := hnext.item hb
      have hshorter : (b.drop size).length < b.length := by
        rw [List.length_drop]
        omega
      obtain ⟨r, hr⟩ := ih _ hshorter (handle s (.item x)) (b.drop size) rfl
      refine ⟨r, fun fuel hfuel => ?_⟩
      obtain ⟨fuel, rfl⟩ : ∃ k, fuel = k + 1 := ⟨fuel - 1, by omega⟩
      simp only [drain, hb]
      exact hr fuel (by omega)
    | broken e =>
      refine ⟨(handle s (.broken e), []), fun fuel hfuel => ?_⟩
      obtain ⟨fuel, rfl⟩ : ∃ k, fuel = k + 1 := ⟨fuel - 1, by omega⟩
      simp only [drain, hb]

theorem Steady.reads_exists (hnext : Steady next) (b : List β) : ∃ es r, Reads next b es r := by
  obtain ⟨⟨_, r⟩, hr⟩ := hnext.drain_total (fun (s : Unit) _ => s) () b
  obtain ⟨es, hreads, _⟩ := drain_reads (hr (b.length + 1) (by omega))
  exact ⟨es, r, hreads⟩

/-- A break is the last thing the loop finds. -/
theorem Reads.shape {b r : List β} {es : List (Entry ι ε)} (h : Reads next b es r) :
    es.any Entry.isBroken = false ∨
      ∃ items e, es = items ++ [.broken e] ∧ items.any Entry.isBroken = false := by
  induction h with
  | incomplete _ => exact Or.inl rfl
  | @item _ _ x _ _ _ _ ih =>
    rcases ih with hsound | ⟨items, e, rfl, hsound⟩
    · exact Or.inl (by simpa [Entry.isBroken] using hsound)
    · exact Or.inr ⟨.item x :: items, e, rfl, by simpa [Entry.isBroken] using hsound⟩
  | @broken _ e _ => exact Or.inr ⟨[], e, rfl, rfl⟩

theorem Steady.reads_left (hnext : Steady next) {b r : List β} {es : List (Entry ι ε)}
    (h : Reads next b es r) : next r = .incomplete := by
  induction h with
  | incomplete hb => exact hb
  | item _ _ ih => exact ih
  | broken _ => exact hnext.empty

/-- Whatever stands behind, the buffer is read the same, and where it is not
broken the rest is read from what was left. -/
theorem Steady.reads_append (hnext : Steady next) {b r more q : List β}
    {es fs : List (Entry ι ε)} (h : Reads next b es r) (hwhole : Reads next (b ++ more) fs q) :
    (es.any Entry.isBroken = true ∧ fs = es) ∨
      (es.any Entry.isBroken = false ∧ ∃ rest, fs = es ++ rest ∧ Reads next (r ++ more) rest q) := by
  induction h generalizing fs with
  | incomplete hb => exact Or.inr ⟨rfl, fs, rfl, hwhole⟩
  | @item b n x es r hb hreads ih =>
    obtain ⟨_, hsize, hstay⟩ := hnext.item hb
    cases hwhole with
    | incomplete hw => rw [hstay more] at hw; cases hw
    | broken hw => rw [hstay more] at hw; cases hw
    | item hw hrest =>
      rw [hstay more] at hw
      cases hw
      rw [List.drop_append_of_le_length hsize] at hrest
      rcases ih hrest with ⟨hbroken, rfl⟩ | ⟨hsound, rest, rfl, hleft⟩
      · exact Or.inl ⟨by simpa [Entry.isBroken] using hbroken, rfl⟩
      · exact Or.inr ⟨by simpa [Entry.isBroken] using hsound, rest, rfl, hleft⟩
  | @broken b e hb =>
    have hstay := hnext.broken hb more
    cases hwhole with
    | incomplete hw => rw [hstay] at hw; cases hw
    | item hw _ => rw [hstay] at hw; cases hw
    | broken hw =>
      rw [hstay] at hw
      cases hw
      exact Or.inl ⟨rfl, rfl⟩

/-- The stream read at once is what any cut of it gives, as far as the first
break. -/
theorem Steady.feeds_whole (hnext : Steady next) {b r q : List β} {cs : List (List β)}
    {es fs : List (Entry ι ε)} (hb : next b = .incomplete) (h : Feeds next b cs es r)
    (hwhole : Reads next (b ++ cs.flatten) fs q) :
    fs <+: es ∧ (fs.any Entry.isBroken = false → es = fs) := by
  induction h generalizing fs with
  | nil =>
    cases hwhole with
    | incomplete _ => exact ⟨List.prefix_refl _, fun _ => rfl⟩
    | item hw _ => rw [List.flatten_nil, List.append_nil, hb] at hw; cases hw
    | broken hw => rw [List.flatten_nil, List.append_nil, hb] at hw; cases hw
  | @cons b c cs es b' gs r hreads _ ih =>
    rw [List.flatten_cons, ← List.append_assoc] at hwhole
    rcases hnext.reads_append hreads hwhole with ⟨hbroken, rfl⟩ | ⟨_, rest, rfl, hrest⟩
    · refine ⟨List.prefix_append _ _, fun hsound => ?_⟩
      rw [hbroken] at hsound
      cases hsound
    · obtain ⟨hhandled, hequal⟩ := ih (hnext.reads_left hreads) hrest
      refine ⟨(List.prefix_append_right_inj es).mpr hhandled, fun hsound => ?_⟩
      rw [List.any_append, Bool.or_eq_false_iff] at hsound
      rw [hequal hsound.2]

end Kit
