/-
The words for each reason to refuse a document. They are Japanese, with
numbers in decimal and field names as they stand in the payload.
-/
import Attestation.Refusal.Basic

namespace Attestation

def EnvelopeFault.message : EnvelopeFault → String
  | .header => "COSE Sign1 (ES384) のヘッダーと一致しません"
  | .payloadLength => "ペイロード長が読めません"
  | .payloadCut => "ペイロードが途中で切れています"
  | .signatureHeader => "96バイトの署名フィールドがありません"
  | .signatureCut => "署名が途中で切れています"
  | .trailingBytes => "署名の後に余剰データがあります"

def BundleFault.message : BundleFault → String
  | .missing => "cabundleがありません"
  | .notArray => "cabundleが要素数0〜15の配列ではありません"
  | .notByteString =>
    "cabundleの要素が2バイト長のバイト列ではありません"

def CertificateFault.message : CertificateFault → String
  | .notSequence => "Certificate SEQUENCEではありません"
  | .lengthUnreadable => "長さが読めません"
  | .lengthMismatch => "Certificateの長さが一致しません"
  | .bodyNotSequence => "TBSCertificate SEQUENCEではありません"
  | .bodyLengthUnreadable => "TBSの長さが読めません"
  | .bodyCut => "TBSが途中で切れています"
  | .versionNotThree => "X.509 v3ではありません"
  | .serialMissing => "serialNumberがありません"
  | .serialLength => "serialNumberの長さが不正です"
  | .serialCut => "serialNumberが途中で切れています"
  | .algorithmMissing => "signatureがありません"
  | .algorithmLength => "signatureの長さが不正です"
  | .algorithmCut => "signatureが途中で切れています"
  | .issuerMissing => "issuerがありません"
  | .sequenceLength => "SEQUENCEの長さが不正です"
  | .sequenceCut => "SEQUENCEが途中で切れています"
  | .nameNotSet => "RelativeDistinguishedNameがSETではありません"
  | .nameLength => "RDNの長さが不正です"
  | .nameCut => "RDNが途中で切れています"
  | .commonNameType => "CNの型がありません"
  | .commonNameLength => "CNの長さが不正です"
  | .commonNameCut => "CNが途中で切れています"
  | .validityHeader => "validityがUTCTimeの組ではありません"
  | .notBeforeCut => "notBeforeが途中で切れています"
  | .notAfterHeader => "notAfterがUTCTimeではありません"
  | .notAfterCut => "notAfterが途中で切れています"
  | .subjectMissing => "subjectがありません"
  | .keyInfoMissing => "subjectPublicKeyInfoがありません"
  | .keyInfoShort => "subjectPublicKeyInfoが短すぎます"
  | .keyCompressed => "公開鍵が非圧縮形式ではありません"
  | .outerAlgorithmMissing => "signatureAlgorithmがありません"
  | .outerAlgorithmLength => "signatureAlgorithmの長さが不正です"
  | .outerAlgorithmCut => "signatureAlgorithmが途中で切れています"
  | .signatureMissing => "signatureValueがありません"
  | .signatureLength => "signatureValueの長さが不正です"
  | .signatureCut => "signatureValueが途中で切れています"
  | .signatureUnusedBits =>
    "signatureValueの未使用ビット数が0ではありません"
  | .trailingBytes => "証明書の末尾に余剰データがあります"

def TimeFault.message : TimeFault → String
  | .zone => "タイムゾーンが 'Z' ではありません"
  | .digit => "数字以外の文字が含まれています"
  | .year => "2000年より前の日時は扱えません"
  | .month => "月が範囲外です"
  | .day => "日が範囲外です"
  | .clock => "時刻が範囲外です"

def Refusal.message : Refusal → String
  | .rootExpired now expiresAt =>
    "ルートCAの有効期限が切れています: now=" ++ toString now
      ++ ", expires_at=" ++ toString expiresAt
  | .malformedEnvelope fault =>
    "COSE Sign1エンベロープが不正です: " ++ fault.message
  | .invalidSignature => "署名検証に失敗"
  | .unexpectedField expected =>
    "想定外のフィールド: " ++ expected.name ++ " を期待していました"
  | .staleTimestamp timestamp now =>
    "タイムスタンプがポリシー外です: timestamp=" ++ toString timestamp
      ++ "ms, now=" ++ toString now ++ "s"
  | .trailingOrMissingData consumed length =>
    "ペイロード長が一致しません: 消費=" ++ toString consumed
      ++ ", 全長=" ++ toString length
  | .malformedBundle fault => "cabundleが不正です: " ++ fault.message
  | .chainBroken index =>
    "証明書チェーンが途切れています: index=" ++ toString index
  | .notACertificate fault =>
    "証明書のパースに失敗: " ++ fault.message
  | .commonNameNotFound => "Common Nameが見つかりません"
  | .invalidTimestamp fault =>
    "不正なタイムスタンプ: " ++ fault.message
  | .certificateExpired notAfter now =>
    "証明書の有効期限切れ: not_after=" ++ toString notAfter
      ++ ", now=" ++ toString now
  | .certificateNotActive notBefore now =>
    "証明書がまだ有効ではありません: not_before=" ++ toString notBefore
      ++ ", now=" ++ toString now
  | .pcrRejected => "PCR値がポリシーで拒否されました"

end Attestation
