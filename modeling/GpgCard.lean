import GpgCard.Go.Bytes
import GpgCard.Go.Utf8
import GpgCard.Go.Strings
import GpgCard.Go.Base64
import GpgCard.Go.Pem
import GpgCard.Go.Asn1
import GpgCard.Go.X509
import GpgCard.Card.Data
import GpgCard.Card.Capabilities
import GpgCard.Card.CardHolder
import GpgCard.Card.KeyInfo
import GpgCard.Card.Update
import GpgCard.Card.Export
