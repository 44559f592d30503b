import BridgeMint.Canonical.Records
import BridgeMint.Store.Basic

/-!
# The state root

The accounts of a store, encoded canonically in ascending order of their addresses and hashed.
Storage is listed in ascending order of its keys and holds no zero words, so the encoding depends on
what the store holds and not on how it came to hold it.
-/

namespace BridgeMint

namespace Codec

/-- An account's record: header, code, and the storage words with their keys. -/
def accountEntries : Codec (List (Address × Account × Bytes × List (Word × Word))) :=
  list (address.pair (account.pair (byteString.pair (list (word.pair word)))))

end Codec

namespace Store

/-- The canonical encoding of the accounts. -/
def encodeAccounts (s : Store) : Bytes :=
  Codec.accountEntries.encode <| s.accounts.entries.map fun (address, record) =>
    (address, record.header, record.code, record.storage.entries)

/-- The digest of the accounts. -/
def root (s : Store) : Word :=
  Word.keccak256 s.encodeAccounts

end Store

end BridgeMint
