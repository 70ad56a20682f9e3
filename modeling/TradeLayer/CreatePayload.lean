import TradeLayer.ByteOrder

namespace TradeLayer
open Library

def push16 (value : UInt16) : List UInt8 := leBytes 2 value.toNat

def push32 (value : UInt32) : List UInt8 := leBytes 4 value.toNat

def push64 (value : UInt64) : List UInt8 := leBytes 8 value.toNat

@[simp] theorem length_push16 (value : UInt16) : (push16 value).length = 2 := length_leBytes _ _

@[simp] theorem length_push32 (value : UInt32) : (push32 value).length = 4 := length_leBytes _ _

@[simp] theorem length_push64 (value : UInt64) : (push64 value).length = 8 := length_leBytes _ _

@[simp] theorem ofNat_leNat_push16 (value : UInt16) :
    UInt16.ofNat (leNat (push16 value)) = value := by
  have hlt : value.toNat < 256 ^ 2 := value.toNat_lt
  rw [push16, leNat_leBytes, Nat.mod_eq_of_lt hlt, UInt16.ofNat_toNat]

@[simp] theorem ofNat_leNat_push32 (value : UInt32) :
    UInt32.ofNat (leNat (push32 value)) = value := by
  have hlt : value.toNat < 256 ^ 4 := value.toNat_lt
  rw [push32, leNat_leBytes, Nat.mod_eq_of_lt hlt, UInt32.ofNat_toNat]

@[simp] theorem ofNat_leNat_push64 (value : UInt64) :
    UInt64.ofNat (leNat (push64 value)) = value := by
  have hlt : value.toNat < 256 ^ 8 := value.toNat_lt
  rw [push64, leNat_leBytes, Nat.mod_eq_of_lt hlt, UInt64.ofNat_toNat]

def pushText (text : List UInt8) : List UInt8 := text.take 255 ++ [0]

/-- The version and the type, swapped like the numbers that follow them. -/
def header (messageVer messageType : UInt16) : List UInt8 :=
  push16 (swapByteOrder16 messageVer) ++ push16 (swapByteOrder16 messageType)

/-- The version and the type as the memory holds them: some builders do not swap them. -/
def plainHeader (messageVer messageType : UInt16) : List UInt8 :=
  push16 messageVer ++ push16 messageType

def pushAmount (propertyId : UInt32) (amount : UInt64) : List UInt8 :=
  push32 (swapByteOrder32 propertyId) ++ push64 (swapByteOrder64 amount)

def createPayloadSimpleSend (propertyId : UInt32) (amount : UInt64) : List UInt8 :=
  header 0 0 ++ pushAmount propertyId amount

def createPayloadSendAll (ecosystem : UInt8) : List UInt8 :=
  header 0 4 ++ [ecosystem]

def createPayloadDExSell (propertyId : UInt32) (amountForSale amountDesired : UInt64)
    (timeLimit : UInt8) (minFee : UInt64) (subAction : UInt8) : List UInt8 :=
  header 1 20 ++ (pushAmount propertyId amountForSale ++
    (push64 (swapByteOrder64 amountDesired) ++
    timeLimit :: (push64 (swapByteOrder64 minFee) ++ [subAction])))

def createPayloadDExAccept (propertyId : UInt32) (amount : UInt64) : List UInt8 :=
  header 0 22 ++ pushAmount propertyId amount

def createPayloadSendToOwners (propertyId : UInt32) (amount : UInt64)
    (distributionProperty : UInt32) : List UInt8 :=
  if propertyId = distributionProperty then header 0 3 ++ pushAmount propertyId amount
  else header 1 3 ++ (pushAmount propertyId amount ++
    push32 (swapByteOrder32 distributionProperty))

def pushIssuance (ecosystem : UInt8) (propertyType : UInt16) (previousPropertyId : UInt32)
    (category subcategory name url data : List UInt8) : List UInt8 :=
  ecosystem :: (push16 (swapByteOrder16 propertyType) ++
    (push32 (swapByteOrder32 previousPropertyId) ++
    (pushText category ++ (pushText subcategory ++ (pushText name ++ (pushText url ++
    pushText data))))))

def createPayloadIssuanceFixed (ecosystem : UInt8) (propertyType : UInt16)
    (previousPropertyId : UInt32) (category subcategory name url data : List UInt8)
    (amount : UInt64) : List UInt8 :=
  header 0 50 ++ (pushIssuance ecosystem propertyType previousPropertyId category subcategory name
    url data ++ push64 (swapByteOrder64 amount))

def createPayloadIssuanceVariable (ecosystem : UInt8) (propertyType : UInt16)
    (previousPropertyId : UInt32) (category subcategory name url data : List UInt8)
    (propertyIdDesired : UInt32) (amountPerUnit deadline : UInt64)
    (earlyBonus issuerPercentage : UInt8) : List UInt8 :=
  header 0 51 ++ (pushIssuance ecosystem propertyType previousPropertyId category subcategory name
    url data ++ (push32 (swapByteOrder32 propertyIdDesired) ++
    (push64 (swapByteOrder64 amountPerUnit) ++ (push64 (swapByteOrder64 deadline) ++
    [earlyBonus, issuerPercentage]))))

def createPayloadIssuanceManaged (ecosystem : UInt8) (propertyType : UInt16)
    (previousPropertyId : UInt32) (category subcategory name url data : List UInt8) :
    List UInt8 :=
  header 0 54 ++ pushIssuance ecosystem propertyType previousPropertyId category subcategory name
    url data

def createPayloadGrant (propertyId : UInt32) (amount : UInt64) (memo : List UInt8) :
    List UInt8 :=
  header 0 55 ++ (pushAmount propertyId amount ++ pushText memo)

def createPayloadRevoke (propertyId : UInt32) (amount : UInt64) (memo : List UInt8) :
    List UInt8 :=
  header 0 56 ++ (pushAmount propertyId amount ++ pushText memo)

def createPayloadChangeIssuer (propertyId : UInt32) : List UInt8 :=
  header 0 70 ++ push32 (swapByteOrder32 propertyId)

def createPayloadEnableFreezing (propertyId : UInt32) : List UInt8 :=
  header 0 71 ++ push32 (swapByteOrder32 propertyId)

def createPayloadDisableFreezing (propertyId : UInt32) : List UInt8 :=
  header 0 72 ++ push32 (swapByteOrder32 propertyId)

def createPayloadMetaDExTrade (propertyIdForSale : UInt32) (amountForSale : UInt64)
    (propertyIdDesired : UInt32) (amountDesired : UInt64) : List UInt8 :=
  header 0 25 ++ (pushAmount propertyIdForSale amountForSale ++
    (push32 (swapByteOrder32 propertyIdDesired) ++ push64 (swapByteOrder64 amountDesired)))

def createPayloadMetaDExCancelPrice (propertyIdForSale : UInt32) (amountForSale : UInt64)
    (propertyIdDesired : UInt32) (amountDesired : UInt64) : List UInt8 :=
  header 0 26 ++ (pushAmount propertyIdForSale amountForSale ++
    (push32 (swapByteOrder32 propertyIdDesired) ++ push64 (swapByteOrder64 amountDesired)))

def createPayloadMetaDExCancelPair (propertyIdForSale propertyIdDesired : UInt32) :
    List UInt8 :=
  header 0 27 ++ (push32 (swapByteOrder32 propertyIdForSale) ++
    push32 (swapByteOrder32 propertyIdDesired))

def createPayloadMetaDExCancelEcosystem (ecosystem : UInt8) : List UInt8 :=
  header 0 28 ++ [ecosystem]

def createPayloadDeactivateFeature (featureId : UInt16) : List UInt8 :=
  header 65535 65533 ++ push16 (swapByteOrder16 featureId)

def createPayloadActivateFeature (featureId : UInt16)
    (activationBlock minClientVersion : UInt32) : List UInt8 :=
  header 65535 65534 ++ (push16 (swapByteOrder16 featureId) ++
    (push32 (swapByteOrder32 activationBlock) ++ push32 (swapByteOrder32 minClientVersion)))

def createPayloadContractDexTrade (nameTraded : List UInt8)
    (amountForSale effectivePrice : UInt64) (tradingAction : UInt8) (leverage : UInt64) :
    List UInt8 :=
  header 0 29 ++ (push64 (swapByteOrder64 amountForSale) ++
    (push64 (swapByteOrder64 effectivePrice) ++ (push64 (swapByteOrder64 leverage) ++
    tradingAction :: pushText nameTraded)))

def createPayloadContractDexClosePosition (ecosystem : UInt8) (contractId : UInt32) :
    List UInt8 :=
  header 0 33 ++ ecosystem :: push32 (swapByteOrder32 contractId)

def createPayloadSetOracle (contractId : UInt32) (high low : UInt64) : List UInt8 :=
  plainHeader 0 105 ++ (push32 (swapByteOrder32 contractId) ++
    (push64 (swapByteOrder64 low) ++ push64 (swapByteOrder64 high)))

def createPayloadCommitChannel (propertyId : UInt32) (amount : UInt64) : List UInt8 :=
  plainHeader 0 108 ++ pushAmount propertyId amount

def createPayloadWithdrawalFromChannel (propertyId : UInt32) (amount : UInt64) : List UInt8 :=
  plainHeader 0 109 ++ pushAmount propertyId amount

def createPayloadInstantTrade (propertyId : UInt32) (amount : UInt64)
    (blockheightExpiry propertyDesired : UInt32) (amountDesired : UInt64) : List UInt8 :=
  plainHeader 0 110 ++ (pushAmount propertyId amount ++
    (push32 (swapByteOrder32 blockheightExpiry) ++ (push32 (swapByteOrder32 propertyDesired) ++
    push64 (swapByteOrder64 amountDesired))))

def createPayloadTransfer (propertyId : UInt32) (amount : UInt64) : List UInt8 :=
  plainHeader 0 112 ++ pushAmount propertyId amount

def createPayloadCreateChannel (channelAddress : List UInt8) (blocks : UInt32) : List UInt8 :=
  plainHeader 0 113 ++ (push32 (swapByteOrder32 blocks) ++ pushText channelAddress)

def createPayloadNewIdRegistration (website name : List UInt8)
    (tokens ltc natives oracles : UInt8) : List UInt8 :=
  plainHeader 0 115 ++ (tokens :: ltc :: natives :: oracles ::
    (pushText website ++ pushText name))

/-- The offer to buy. The price is swapped and then not pushed. -/
def createPayloadDEx (propertyId : UInt32) (amount _price : UInt64) (timeLimit : UInt8)
    (minFee : UInt64) (subAction : UInt8) : List UInt8 :=
  plainHeader 0 21 ++ (pushAmount propertyId amount ++
    timeLimit :: (push64 (swapByteOrder64 minFee) ++ [subAction]))

def createPayloadIssuancePegged (ecosystem : UInt8) (previousPropertyId : UInt32)
    (name : List UInt8) (propertyId contractId : UInt32) (amount : UInt64) : List UInt8 :=
  plainHeader 0 100 ++ ecosystem :: (push32 (swapByteOrder32 previousPropertyId) ++
    (push32 (swapByteOrder32 propertyId) ++ (push32 (swapByteOrder32 contractId) ++
    (push64 (swapByteOrder64 amount) ++ pushText name))))

def createPayloadSendPeggedCurrency (propertyId : UInt32) (amount : UInt64) : List UInt8 :=
  plainHeader 0 102 ++ pushAmount propertyId amount

def createPayloadRedemptionPegged (propertyId contractId : UInt32) (amount : UInt64) :
    List UInt8 :=
  plainHeader 0 101 ++ (push32 (swapByteOrder32 propertyId) ++
    (push32 (swapByteOrder32 contractId) ++ push64 (swapByteOrder64 amount)))

end TradeLayer
