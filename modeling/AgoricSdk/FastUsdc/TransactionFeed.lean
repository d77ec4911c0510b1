import AgoricSdk.Lib.Program
import AgoricSdk.Lib.Table

/-! The evidence of CCTP transactions that operators attest. -/

namespace AgoricSdk.FastUsdc

abbrev EvmHash := String

structure EvidenceAux where
  forwardingChannel : String
  recipientAddress : String
  deriving DecidableEq

structure EvidenceTx where
  amount : Nat
  forwardingAddress : String
  sender : String
  deriving DecidableEq

structure CctpTxEvidence where
  aux : EvidenceAux
  blockHash : EvmHash
  blockNumber : Nat
  blockTimestamp : Nat
  chainId : Int
  tx : EvidenceTx
  txHash : EvmHash
  deriving DecidableEq

end AgoricSdk.FastUsdc
