import DecentRegistry.Foundations.Cbor
import DecentRegistry.Model.Runtime

/-!
# A concrete runtime

Canonical CBOR, SHA-256, and Ed25519 on a fixed list of signatures: five key pairs, named `a` to
`e`, and their signatures over the digests of the sample records. A signature that is not in the
list does not verify.
-/

namespace DecentRegistry.Sample

open PyValue Sha256

/-- The public keys. -/
def publicKeyNumber : Char → ℕ
  | 'a' => 0x934536554d101aeff925e01d3f90959db4c649daa7fdb2bbbb81bf13d69e258f
  | 'b' => 0x39c581f0b55ce705c9bd0ae14ccb1931b90f443e7f8c13385d308636460ad632
  | 'c' => 0xcd7ddaef1a71228328ae700153e8f88b808e76adf7eecca51cbeb193f587a189
  | 'd' => 0x23d009bb33f18a79400b06170dce4736c878a6374eb94bf1275d75db807a1b0a
  | 'e' => 0x634afa2de2abe53f761e7867d50c0f4051d1fec49a0274d2d30e84be2f2a68d0
  | _ => 0

def publicKey (signer : Char) : Bytes := bigEndian 32 (publicKeyNumber signer)

/-- The signatures over one digest: the signer, and the two halves of the signature. -/
structure Signatures where
  digest : ℕ
  bySigner : List (Char × ℕ × ℕ)

/-- A signature as bytes. -/
def signatureBytes (signature : ℕ × ℕ) : Bytes :=
  bigEndian 32 signature.1 ++ bigEndian 32 signature.2

/-- Over the first legacy Identity of `alice`, by owner `a`. -/
def legacyIdentitySignatures : Signatures :=
  { digest := 0xdaaddf8c3e34b0f0dbc9839dc39fe6aa3d34661dc0f9b2e437153f9f11412ac8
    bySigner :=
      [('a', 0x2e6a5f71fa6d1cfad9766aae7e38f88224ea8b4fe89296d5a722c7e281438fba,
          0xb5956e2fd2f19e6b3a345e58b560ac2d8b7024d8e52bee6405e892fbc9f9e10b)] }

/-- Over its upgrade to the signers `a`, `b`, `c`. -/
def upgradeSignatures : Signatures :=
  { digest := 0xb75de94e9f46ac399dada1b55f53481dbc0e725d067b92c7f04d12fc68e4b5e6
    bySigner :=
      [('a', 0xd21504fbda5b7ae3484266af027da82441916460016d034d82d3872ea46dbff4,
          0xf7ec5f7561a044038d05ef441c719d479657b32dcacef01f897d425cd6a81b0f)] }

/-- Over the replacement of those signers by `c`, `d`, `e`. -/
def replacementSignatures : Signatures :=
  { digest := 0xa4f3e78b4e02c30471301b31a87bef5ad3f37f4b6fc8de2756adfddfd37d2500
    bySigner :=
      [('a', 0x37db5e348cf6cbd4a0465ebdd8019c2e8d22851ce99cc5bc7a4482bbb5fb8f80,
          0xd7ce4b81e2fa1e8936dd669eb53488c6cfa02970c5d33202d1aa86513213a10e),
        ('b', 0x79de712c67cf63e8778e514281effacb87c2dba95df2a4633f143c218d226571,
          0x8b43f3a3ea1f6a144933694612a0e87f94d2e2d7de56ce67b7854f4b1132520f)] }

/-- Over the rotation to owner `d`. -/
def rotationSignatures : Signatures :=
  { digest := 0x8c4d8267a2da6f3eed40435c7ac3a8076f169fd3df1461d48b9e66f334369478
    bySigner :=
      [('c', 0x0babd86401b56172124b0488c21742ff7fbce2b2ef088d22e87fc72abd1ebdf9,
          0x412d026fcc784c93c81849fd449bf65bea87eb9bf6648f6164f6214433160a07),
        ('d', 0xfa8dc3b965579048dc24f3324ef4c64c548befce7bba078bc0b772d3a3f9572a,
          0xcec0fe76e1105ccdce6f986cfe2e8330eb1594c6853f25286abb7cdc17b73703)] }

/-- Over a multisignature genesis of `alice`. -/
def identityGenesisSignatures : Signatures :=
  { digest := 0xba234e8aea46fb8c3b08f3e282b937578fe9fed0b87eccfb72c99f3d16cc5ca7
    bySigner :=
      [('a', 0x591387f7c358276355b4d108e29368b244c210317fe24d39dec2bdce0eb943f3,
          0x9b77a689ed06f2e50fc18bc8d9afbee297573311445aff2e7fba33fc5dd59305),
        ('b', 0x969c4751932e61ec4d1d136c773f206e6939d048a66c0e734b6e8da70fd57e01,
          0x6838d1257404139b84ddcca5f0573477d2dbf5c709799fdf3107ed3b0d0b540f)] }

/-- Over a legacy Identity of `alice` that has a payload. -/
def looseIdentitySignatures : Signatures :=
  { digest := 0xf5f84eaf532d7b4d8ede74f1ef037d5d71ef09b083a97ef2ca09c1c3710f9366
    bySigner :=
      [('a', 0xbd2135c5ce2b5202850fdc5ba5737ef3fea9e1a06280e8a06e77e28a95f9d60a,
          0x6ee6f9afe2a42d3af84c139b9bffd158f71c68cbae1a0614a9ceeaff521e5a0a)] }

/-- Over the upgrade of that Identity. -/
def looseUpgradeSignatures : Signatures :=
  { digest := 0xfaf00c3d7322be2132a72208e9eb45fa5ea751b3228a8dbb0f70d0c4957b62b3
    bySigner :=
      [('a', 0x5a4a3f0fa6a65f44e83f961974f16a8912746ec5b343a1f4f1c164259a7b22d9,
          0x4321b2cf468817f36ac15d38ff5ad981cac7d580ce238f6afcb589dc5da6cc0d)] }

/-- Over a legacy Identity of `alice` by another owner, `e`. -/
def foreignIdentitySignatures : Signatures :=
  { digest := 0x593b991a3adc5ecfc6e24b5b451a10c058c1d9dc8b3a94ce84dabb117952951a
    bySigner :=
      [('e', 0x8984cb9253a6adf720e3ddc801f67fcdcba8decbab70543d9dd39c3a1ad9399d,
          0xb7a6c0ee75fe5848387479db584aae8153fe25cf80c59ba292da68e2517b610d)] }

/-- Over the genesis of a Provider Record by owner `a`. -/
def providerGenesisSignatures : Signatures :=
  { digest := 0x007a8c7c88801dd1525ce1e8dfb449e717ddabf14a76af9abd8c4cbaf60b569f
    bySigner :=
      [('a', 0x21778e32ef8a1232e513ad6a0b563f25c5e4a4bd9877f6d100187c8233fde145,
          0x4b3962a39a4852406c0c91fa455a1d8c7682d03dc3390e2d29b849d815e7bb0e),
        ('b', 0xc7a218e93110898d5bf983ab65400cd87707cce992fd331ce6ae1552753a31f1,
          0x4dc1008ba1ef53c29dbc18489a3e9e08a5ff0ebdcb7b577200dfe9a4d88b6604)] }

/-- Over the replacement of its signers by `c`, `d`, `e`. -/
def providerReplacementSignatures : Signatures :=
  { digest := 0x2e7f80ce4cc7fa36604e7635a65d090e71584d39e118436853b91eceb5ea11b0
    bySigner :=
      [('a', 0xe2bd9cf670d7757631eec87d1efd67ccfd727ce3c440e4cb4f995b1a5b4eeea3,
          0x1fc7522e2749c7f13e99413145e1cc77ce8a0112a6f51cb21338416c65f89902),
        ('b', 0x18c51b5a4427dc83285c29745872690378a4717f867a40bd7ec3c66e4b14644f,
          0x70983926235b942f6ca5e037455498f29ec1c288399c48bfe01626c43dd34a0b)] }

/-- Over its withdrawal. -/
def providerWithdrawalSignatures : Signatures :=
  { digest := 0x9bb0b9f2118e238b6ce3638878e15fecaf807f943a4405924e6a7ea5a4024758
    bySigner :=
      [('a', 0xd50607bb84db19e48544df790b12adfd15bb50f98d7f4310b13f5accb9f4da5f,
          0x3990e1bf839b0fc365527f724c36f0be85e42da48c25d24773c42de30324a704),
        ('b', 0x7f95994350eab0ec2e6c296c4b418603f2326544a6ac607da10f478a036079c3,
          0xb72831fa5fc31b0f25324aabab75321199932dd1dd128ba743e62ade8a92f30c)] }

/-- Over an active state after the withdrawal. -/
def providerReactivationSignatures : Signatures :=
  { digest := 0x1ad3c6d3110ede6631041413704844158c90f0f4b0b26c6315a5a01cd3555473
    bySigner :=
      [('a', 0x88c0505349d255674fff370519782e5cb504ee775dc9c37f32e040b53d58c39f,
          0xa33378253c3e4747dc1334aa40ab7dacd1abbfd72693c7b7e6cdb708efbba80c),
        ('b', 0x9dfbb889d05945ddf090a88eac80e64dc315047bcc757e4d264e323b75fc5d64,
          0x27dc48cc4bbd8858232f9160d1ca9f3f33cabaf401b63b3ae43a7cb5c7719d04)] }

/-- Over a legacy Provider Record of the same object by another owner, `e`. -/
def foreignProviderSignatures : Signatures :=
  { digest := 0x99cc4252f55e6d51009891fcbd5b10e3c8fd3ab782be6278b9dba9431a4a3ab6
    bySigner :=
      [('e', 0x5015638c95e838d1eabc6c0a4fc54472d29a9f9c784f1e6609796d67e1ce0c8a,
          0x2b9c6ba934cd6425e5957aa5371387e8fed9940afa438a2127455cddb588300e)] }

/-- Over the same replacement, by `b` and `c`. -/
def otherReplacementSignatures : Signatures :=
  { digest := 0xa4f3e78b4e02c30471301b31a87bef5ad3f37f4b6fc8de2756adfddfd37d2500
    bySigner :=
      [('b', 0x79de712c67cf63e8778e514281effacb87c2dba95df2a4633f143c218d226571,
          0x8b43f3a3ea1f6a144933694612a0e87f94d2e2d7de56ce67b7854f4b1132520f),
        ('c', 0xaa59fd3a446a84e4db836f6db055ff70e0caa4a7b24ecd68749a41f98d6e2a8a,
          0xe1d55beb7d37760c039c893c3e3330a4b746282d59d855675a717144ec48db01)] }

/-- Over a legacy Provider Record by owner `a`. -/
def legacyProviderSignatures : Signatures :=
  { digest := 0x6a19c6d32ce80579975b004fdb48d58dd5ba82fa3b56d2cabad7751c8425f5b9
    bySigner :=
      [('a', 0x40d907a0228630cd3ce8c7b7ecfe2eff5b3f29abe36751101b1a8c5a8f1e89dc,
          0xfc070788bdce3785cd9fa78f37485896ada01e04ec3032066dff83e17f103f0d)] }

/-- Over its withdrawal. -/
def legacyWithdrawalSignatures : Signatures :=
  { digest := 0x9dc94cd596de24404c8de10c63401308e66b5c38dba21f64996ca84f8dccd8c2
    bySigner :=
      [('a', 0x94b9837101edb9fa7097ff39d4cc7dde1d6e6e989ba3e38876fc86288b14f2e6,
          0x798583bd1d2bcdfb1da6cfceb5516ecc8f894101b07369b0ee0eed9c3aa5740d)] }

/-- Over an active record after that withdrawal. -/
def legacyReactivationSignatures : Signatures :=
  { digest := 0xcb6093e57435ac66feca4ddbcdfc60c6d0b76dfa21d7de0b53b3976ff89a4a40
    bySigner :=
      [('a', 0x3f9cae1f987e084f68c899028ae221b23a8c25b2daa90846386312147180b7f6,
          0xff63d30d235827b4de15ed39fb49d843e48e1c0a631ab27ddc16779b3ed3ab0e)] }

/-- Over a Provider Record of the object whose hash is that of the key of `a`, by owner `a`. -/
def namedProviderSignatures : Signatures :=
  { digest := 0x7f03bb2d5f4e7ebfeb8061cf0f52724af422df59943ef5dae22327f130bd1be4
    bySigner :=
      [('a', 0xaa075914715fce4bd52da8802e82c1f630e9ad9c9b701678227c35f9598e7fc9,
          0x84d6c181f53089ab76610c78026b1a52e82dcc05cff073b21c9722bba9262f05)] }

/-- Over a Provider Record of that object which names `e` in a second field, by `e`. -/
def ambiguousProviderSignatures : Signatures :=
  { digest := 0xf1a58335770ce64ff91f9f08cdc36652176d8230fd2f67aee309a289830a3f69
    bySigner :=
      [('e', 0x38f7d7cb9fc645b7ac6fa34311db73d3e860685bed49eef5029255981ad5ae03,
          0xf73bb384bd9e88ba1075dcce9bc27681142c3e0e83fc27e599bbb9c9bf4c2401)] }

/-- Over a withdrawal of that object which names `e` in a second field, by `e`. -/
def ambiguousWithdrawalSignatures : Signatures :=
  { digest := 0x4b22d363736ac567d5cb5d50890e22ba5ddaa8541a7741ee82ab0e14830aff1e
    bySigner :=
      [('e', 0xe3ceb61a3c61285cecc290fbbb76ee4210a7fe61cb4eb4a92280964118d9e199,
          0xc5340052725bd7235f95772f01a13244b37e0a2ebf9aa1248dc4787788dc7300)] }

/-- Over an ordinary update of the Provider Record that names one signer, `a`, and the epoch 0. -/
def soloProviderSignatures : Signatures :=
  { digest := 0xe431f40121545c185e02615d512b2ce622d9cfb86d654c0d1aa68d33e96e0cc4
    bySigner :=
      [('a', 0x117154c917b0bf5dc2baad61a9435d9def33e6d071f7615296bff76a78bdd7aa,
          0x8f2083eca48ceb9ee2bb7f12cee0807107189ae722d7925c846a0f7c99a08505)] }

/-- Over the withdrawal of the legacy Provider Record in upper case. -/
def upperWithdrawalSignatures : Signatures :=
  { digest := 0x9177e54ea3930ab03725c7ca061ea90d54b0a086fd58604223fe4362c4a339ac
    bySigner :=
      [('a', 0x040da730924105efa9bbdc73b68507ece48ab8db0eec3424435085e8a9825a85,
          0x8a47280ba19fc1f32332f08ca97998ef37f091fc94a85fff42cc139c580e5c0a)] }

/-- Over the same replacement, by the new signers `d` and `e`. -/
def newReplacementSignatures : Signatures :=
  { digest := 0xa4f3e78b4e02c30471301b31a87bef5ad3f37f4b6fc8de2756adfddfd37d2500
    bySigner :=
      [('d', 0x5569d851cc903bee6ef2a19e4599a4fc6bdd05b51f20848fc16e6637471c8564,
          0x26c6f81547a1fe775d77aea968e609107b0c18ea0f5292ba7bb395fd805e1803),
        ('e', 0x1fcbd0df7d367db6370fc42f4209b230886cc5aa0a953b022505a7609b709ffe,
          0x299d3ee0ca10bcc0091d6c1020a23d0c6c8178a303e0cde936010938a8e23e0e)] }

/-- Over the withdrawal of the multisignature Provider Record in upper case. -/
def upperProviderWithdrawalSignatures : Signatures :=
  { digest := 0xd3ea8231eecbf4d1ffd127dae3d314463537fae80df2a0f77843d0fd168abef3
    bySigner :=
      [('a', 0xcf912ef6bb795da19280f9072059ab7716fe48257f994047324e05f26129160d,
          0x2d93e2761a75795f96ce9af3c666df09672bdd664e459af47d169a798daa6308),
        ('b', 0xe37555b744da9256f4dd9759b2cdc5eddc9d81534883459cac814f3756576e49,
          0xdcaa89e2218a07beb6e7f859868f7f0e86da5829aaa308de4b40e9fda512fd0a)] }

/-- Over the replacement of `c` by `d`. -/
def partialReplacementSignatures : Signatures :=
  { digest := 0xc84f16d4d2fbdd408d5e6272c8a1dc7d122adb303f5989bbf86ed26e80f46af1
    bySigner :=
      [('a', 0x09090d21c3b58e481d678b4cb28c7f71b6aadb885afbd9ca7d8b2ef8c989be4d,
          0x19c19415e93e8329e441c31038b0efdcf89486618eab7b7ca9b06b2727dfe70e),
        ('b', 0x148f4dec978da3439d5ad4e7c7b75d5dc6c3428840cd6facec6da22126d70859,
          0x7be11bbf6780e528c769cbf1badfa80099a68b5c8defeaa3f4d5c71958019b02)] }

/-- Over the legacy Identity of `alice` that follows the first, by owner `a`. -/
def laterIdentitySignatures : Signatures :=
  { digest := 0x132bca6464147caae02fdd9f3bf26287d2660f02eb43d51c99e61adc67a03a27
    bySigner :=
      [('a', 0x14562e0363b08c47a74841cd8b3091e99a94675c61d43fa036b65ecfcb4b0851,
          0x1ec9c8082bf082602f497b45054ab94c99d723e3bd653f4a75439afdbdf70d0d)] }

/-- All signatures. -/
def allSignatures : List Signatures :=
  [legacyIdentitySignatures, upgradeSignatures, replacementSignatures, rotationSignatures,
   identityGenesisSignatures, looseIdentitySignatures, looseUpgradeSignatures,
   foreignIdentitySignatures, providerGenesisSignatures, providerReplacementSignatures,
   providerWithdrawalSignatures, providerReactivationSignatures, foreignProviderSignatures,
   otherReplacementSignatures, legacyProviderSignatures, legacyWithdrawalSignatures,
   legacyReactivationSignatures, namedProviderSignatures, ambiguousProviderSignatures,
   ambiguousWithdrawalSignatures, soloProviderSignatures, upperWithdrawalSignatures,
   newReplacementSignatures, upperProviderWithdrawalSignatures, partialReplacementSignatures,
   laterIdentitySignatures]

/-- Ed25519 verification of the listed signatures. -/
def ed25519Verify (key message signature : Bytes) : Bool :=
  allSignatures.any fun s =>
    bigEndian 32 s.digest = message &&
      s.bySigner.any fun e => publicKey e.1 = key && signatureBytes e.2 = signature

/-- What verifies is signed with one of the five keys. -/
theorem exists_signer {key message signature : Bytes}
    (h : ed25519Verify key message signature = true) :
    ∃ c ∈ ['a', 'b', 'c', 'd', 'e'], publicKey c = key := by
  have hnames : ∀ s ∈ allSignatures, ∀ e ∈ s.bySigner, e.1 ∈ ['a', 'b', 'c', 'd', 'e'] := by decide
  rw [ed25519Verify, List.any_eq_true] at h
  obtain ⟨s, hs, hsigned⟩ := h
  rw [Bool.and_eq_true, List.any_eq_true] at hsigned
  obtain ⟨e, he, hkey⟩ := hsigned.2
  rw [Bool.and_eq_true, decide_eq_true_eq] at hkey
  exact ⟨e.1, hnames s hs e he, hkey.1⟩

/-- A signature is of one key. -/
theorem signer_unique {key key' message message' signature : Bytes}
    (h : ed25519Verify key message signature = true)
    (h' : ed25519Verify key' message' signature = true) : key = key' := by
  have hlisted : ∀ s ∈ allSignatures, ∀ e ∈ s.bySigner, ∀ s' ∈ allSignatures, ∀ e' ∈ s'.bySigner,
      signatureBytes e.2 = signatureBytes e'.2 → publicKey e.1 = publicKey e'.1 := by
    decide +kernel
  simp only [ed25519Verify, List.any_eq_true, Bool.and_eq_true, decide_eq_true_eq] at h h'
  obtain ⟨s, hs, -, e, he, rfl, rfl⟩ := h
  obtain ⟨s', hs', -, e', he', rfl, hsame⟩ := h'
  exact hlisted s hs e he s' hs' e' he' hsame.symm

/-- The signature of a signer over a digest. -/
def signatureBy (signer : Char) (digest : Bytes) : Bytes :=
  let listed := (allSignatures.filter fun s => bigEndian 32 s.digest = digest).flatMap (·.bySigner)
  ((listed.find? fun e => e.1 = signer).map fun e => signatureBytes e.2).getD []

/-- The concrete runtime. -/
def runtime : Runtime where
  loads := Cbor.decode
  dumps := Cbor.encode
  sha256 := sha256
  sha256_length := length_sha256
  ed25519Verify key message signature := .ok (ed25519Verify key message signature)

/-- It decodes what it encoded. -/
theorem runtime_roundTrips : runtime.RoundTrips := fun _ _ hv h => Cbor.decode_encode hv h

end DecentRegistry.Sample
